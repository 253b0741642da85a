import Unclosed.Standard.Package

/-!
The package `encoding/json`: encoding and decoding of JSON.
-/

namespace Unclosed

def StandardPackage.json : StandardPackage := ⟨"encoding/json", "json.go", ofLines
  ["package json",
   "",
   "import \"io\"",
   "",
   "func Marshal(v any) ([]byte, error)",
   "",
   "func MarshalIndent(v any, prefix, indent string) ([]byte, error)",
   "",
   "func Unmarshal(data []byte, v any) error",
   "",
   "type Decoder struct \x7b",
   "\tr io.Reader",
   "\x7d",
   "",
   "func NewDecoder(r io.Reader) *Decoder",
   "",
   "func (dec *Decoder) Decode(v any) error",
   "",
   "func (dec *Decoder) DisallowUnknownFields()",
   "",
   "type Encoder struct \x7b",
   "\tw io.Writer",
   "\x7d",
   "",
   "func NewEncoder(w io.Writer) *Encoder",
   "",
   "func (enc *Encoder) Encode(v any) error",
   "",
   "func (enc *Encoder) SetIndent(prefix, indent string)"]⟩

end Unclosed
