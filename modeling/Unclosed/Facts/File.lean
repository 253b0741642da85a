import Unclosed.Facts.Store

/-!
Fact files: four magic bytes, a version, and the facts.  Numbers are written in
base 128, least significant digit first, with the high bit set on all digits
but the last.
-/

namespace Unclosed
namespace FactFile

def magic : List UInt8 := [0x43, 0x43, 0x46, 0x54]

def version : Nat := 1

/-! ### Writing -/

def encodeNumber (number : Nat) : List UInt8 :=
  if number < 128 then [number.toUInt8]
  else (number % 128 + 128).toUInt8 :: encodeNumber (number / 128)
termination_by number
decreasing_by omega

def encodeText (text : String) : List UInt8 :=
  encodeNumber text.utf8ByteSize ++ text.toUTF8.toList

def encodeFact (fact : FuncKey × Bool) : List UInt8 :=
  encodeText fact.1.text ++ [if fact.2 then 1 else 0]

def encode (facts : List (FuncKey × Bool)) : List UInt8 :=
  magic ++ encodeNumber version ++ encodeNumber facts.length ++ facts.flatMap encodeFact

/-! ### Reading -/

/-- A number of at most `digits` digits, the last of which is at most `last`
when all of them are used. -/
def decodeNumber (last : Nat) : Nat → List UInt8 → Option (Nat × List UInt8)
  | 0, _ => none
  | _ + 1, [] => none
  | digits + 1, byte :: rest =>
    if byte.toNat < 128 then
      if digits = 0 && last < byte.toNat then none else some (byte.toNat, rest)
    else
      match decodeNumber last digits rest with
      | some (higher, after) => some (byte.toNat - 128 + 128 * higher, after)
      | none => none

def decodeVersion (bytes : List UInt8) : Option (Nat × List UInt8) := decodeNumber 15 5 bytes

def decodeLength (bytes : List UInt8) : Option (Nat × List UInt8) := decodeNumber 1 10 bytes

def splitBytes (count : Nat) (bytes : List UInt8) : Option (List UInt8 × List UInt8) :=
  if bytes.length < count then none else some (bytes.take count, bytes.drop count)

def decodeText (bytes : List UInt8) : Option (String × List UInt8) := do
  let (length, afterLength) ← decodeLength bytes
  let (encoded, rest) ← splitBytes length afterLength
  let text ← String.fromUTF8? ⟨encoded.toArray⟩
  some (text, rest)

def decodeFlag : List UInt8 → Option (Bool × List UInt8)
  | 0 :: rest => some (false, rest)
  | 1 :: rest => some (true, rest)
  | _ => none

def decodeFacts : Nat → List UInt8 → Option (List (String × Bool))
  | 0, _ => some []
  | count + 1, bytes => do
    let (key, afterKey) ← decodeText bytes
    let (fact, rest) ← decodeFlag afterKey
    let others ← decodeFacts count rest
    some ((key, fact) :: others)

def decodeParts (bytes : List UInt8) : Option (List UInt8 × Nat × List (String × Bool)) := do
  let (mark, afterMark) ← splitBytes 4 bytes
  let (number, afterVersion) ← decodeVersion afterMark
  let (count, rest) ← decodeLength afterVersion
  let facts ← decodeFacts count rest
  some (mark, number, facts)

/-- The facts of a file.  Bytes after the last fact are ignored, and the last
fact about a key counts. -/
def decode (bytes : List UInt8) : Except FactError (OrderedMap Bool) :=
  match decodeParts bytes with
  | none => .error .malformed
  | some (mark, number, facts) =>
    if mark ≠ magic then .error .wrongMagic
    else if number ≠ version then .error (.wrongVersion number)
    else .ok (OrderedMap.ofList facts)

end FactFile

namespace FactStore

def load (file : Option (List UInt8)) : Except FactError FactStore :=
  match file with
  | none => .error .unreadable
  | some bytes => (FactFile.decode bytes).map fun facts => ⟨facts, OrderedMap.empty⟩

/-- A store that falls back on the facts of a file, if it is one. -/
def withFallbackFile (file : Option (List UInt8)) : FactStore :=
  match file.map FactFile.decode with
  | some (.ok facts) => withFallback facts
  | _ => empty

def save (store : FactStore) : List UInt8 := FactFile.encode store.snapshot

end FactStore

end Unclosed
