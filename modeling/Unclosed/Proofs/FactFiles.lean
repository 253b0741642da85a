import Unclosed.Facts.File
import Unclosed.Proofs.FactWrites

/-!
Fact files hold what was written to them.  Reading a file gives the facts of the
store that was saved, and a file that was cut short is no fact file: a reader
takes no notice of what stands behind the bytes it reads, so if it were content
with a part of the file, it would stop at the same place of the whole.
-/

namespace Unclosed
namespace FactFile

variable {facts : List (FuncKey × Bool)}

/-! ### Numbers -/

theorem toNat_toUInt8 {number : Nat} (small : number < 256) :
    number.toUInt8.toNat = number :=
  Nat.mod_eq_of_lt small

theorem decodeNumber_encodeNumber {last : Nat} (small : last < 128) (digits number : Nat)
    (rest : List UInt8) :
    decodeNumber last (digits + 1) (encodeNumber number ++ rest) =
      if number < (last + 1) * 128 ^ digits then some (number, rest) else none := by
  induction digits generalizing number with
  | zero =>
    rw [encodeNumber]
    by_cases short : number < 128
    · rw [if_pos short, List.singleton_append, decodeNumber, toNat_toUInt8 (by omega), if_pos short]
      by_cases fits : number < last + 1
      · have within : ¬last < number := by omega
        simp [fits, within]
      · have beyond : last < number := by omega
        simp [fits, beyond]
    · rw [if_neg short, List.cons_append, decodeNumber, toNat_toUInt8 (by omega),
        if_neg (by omega), if_neg (by omega)]
      rfl
  | succ digits ih =>
    have room : 128 ≤ (last + 1) * 128 ^ (digits + 1) :=
      calc 128
        _ ≤ (last + 1) * 128 ^ digits * 128 :=
            Nat.le_mul_of_pos_left _ (Nat.mul_pos last.succ_pos (Nat.pow_pos (by decide)))
        _ = (last + 1) * 128 ^ (digits + 1) := by rw [Nat.pow_succ, Nat.mul_assoc]
    rw [encodeNumber]
    by_cases short : number < 128
    · rw [if_pos short, List.singleton_append, decodeNumber, toNat_toUInt8 (by omega), if_pos short,
        if_neg (by simp), if_pos (by omega)]
    · have fits : number / 128 < (last + 1) * 128 ^ digits ↔
          number < (last + 1) * 128 ^ (digits + 1) := by
        rw [Nat.div_lt_iff_lt_mul (by omega), Nat.pow_succ, Nat.mul_assoc]
      rw [if_neg short, List.cons_append, decodeNumber, toNat_toUInt8 (by omega),
        if_neg (by omega), ih]
      simp only [fits]
      by_cases enough : number < (last + 1) * 128 ^ (digits + 1)
      · simp only [if_pos enough, Option.some.injEq, Prod.mk.injEq, and_true]
        omega
      · simp only [if_neg enough]

theorem decodeLength_encodeNumber (number : Nat) (rest : List UInt8) :
    decodeLength (encodeNumber number ++ rest) =
      if number < 2 ^ 64 then some (number, rest) else none :=
  decodeNumber_encodeNumber (by decide) 9 number rest

theorem decodeVersion_encodeNumber (number : Nat) (rest : List UInt8) :
    decodeVersion (encodeNumber number ++ rest) =
      if number < 2 ^ 32 then some (number, rest) else none :=
  decodeNumber_encodeNumber (by decide) 4 number rest

/-! ### Bytes behind -/

def Reads {α : Type} (read : List UInt8 → Option (α × List UInt8)) : Prop :=
  ∀ bytes value rest more, read bytes = some (value, rest) →
    read (bytes ++ more) = some (value, rest ++ more)

/-- On a cut text a reader fails, or what it leaves is cut. -/
theorem Reads.cut {α : Type} {read : List UInt8 → Option (α × List UInt8)} (reads : Reads read)
    {part missing rest : List UInt8} {value : α}
    (whole : read (part ++ missing) = none ∨ read (part ++ missing) = some (value, rest)) :
    read part = none ∨ ∃ left, read part = some (value, left) ∧ rest = left ++ missing := by
  cases found : read part with
  | none => exact .inl rfl
  | some result =>
    obtain ⟨other, left⟩ := result
    have goesOn := reads part other left missing found
    rw [goesOn] at whole
    rcases whole with failed | same
    · cases failed
    · cases same
      exact .inr ⟨left, rfl, rfl⟩

theorem decodeNumber_reads (last digits : Nat) : Reads (decodeNumber last digits) := by
  induction digits with
  | zero =>
    intro bytes number rest more decoded
    cases decoded
  | succ digits ih =>
    intro bytes number rest more decoded
    cases bytes with
    | nil => cases decoded
    | cons byte later =>
      rw [List.cons_append, decodeNumber]
      rw [decodeNumber] at decoded
      by_cases final : byte.toNat < 128
      · rw [if_pos final] at decoded ⊢
        split at decoded
        · cases decoded
        · next fits =>
          cases decoded
          rw [if_neg fits]
      · rw [if_neg final] at decoded ⊢
        cases found : decodeNumber last digits later with
        | none =>
          rw [found] at decoded
          cases decoded
        | some result =>
          rw [found] at decoded
          cases decoded
          rw [ih later _ _ more found]

theorem splitBytes_reads (count : Nat) : Reads (splitBytes count) := by
  intro bytes first rest more split
  unfold splitBytes at split ⊢
  by_cases short : bytes.length < count
  · rw [if_pos short] at split
    cases split
  · rw [if_neg short] at split
    cases split
    have enough : count ≤ bytes.length := Nat.le_of_not_lt short
    rw [if_neg (by rw [List.length_append]; omega), List.take_append_of_le_length enough,
      List.drop_append_of_le_length enough]

theorem decodeText_reads : Reads decodeText := by
  intro bytes text rest more decoded
  unfold decodeText at decoded ⊢
  cases length : decodeLength bytes with
  | none =>
    rw [length] at decoded
    cases decoded
  | some counted =>
    obtain ⟨count, afterLength⟩ := counted
    rw [length] at decoded
    cases split : splitBytes count afterLength with
    | none =>
      simp only [Option.bind_eq_bind, Option.bind_some, split] at decoded
      cases decoded
    | some parts =>
      have lengthMore : decodeLength (bytes ++ more) = some (count, afterLength ++ more) :=
        decodeNumber_reads 1 10 bytes count afterLength more length
      simp only [Option.bind_eq_bind, Option.bind_some, split] at decoded
      simp only [lengthMore, Option.bind_eq_bind, Option.bind_some,
        splitBytes_reads count afterLength parts.1 parts.2 more split]
      cases valid : String.fromUTF8? ⟨parts.1.toArray⟩ with
      | none =>
        rw [valid] at decoded
        cases decoded
      | some found =>
        rw [valid] at decoded
        cases decoded
        rfl

theorem decodeFlag_reads : Reads decodeFlag := by
  intro bytes flag rest more decoded
  unfold decodeFlag at decoded
  split at decoded
  · cases decoded
    rfl
  · cases decoded
    rfl
  · cases decoded

/-! ### Texts -/

theorem toList_eq_data (bytes : ByteArray) : bytes.toList = bytes.data.toList := by
  have behind : ∀ left index : Nat, ∀ before : List UInt8, bytes.size - index = left →
      ByteArray.toList.loop bytes index before = before.reverse ++ bytes.data.toList.drop index := by
    intro left
    induction left with
    | zero =>
      intro index before none
      rw [ByteArray.toList.loop, if_neg (by omega), List.drop_eq_nil_of_le, List.append_nil]
      exact Nat.le_of_sub_eq_zero none
    | succ left ih =>
      intro index before more
      have inside : index < bytes.data.toList.length := by
        rw [Array.length_toList]
        change index < bytes.size
        omega
      have first : bytes.get! index = bytes.data.toList[index] := by
        simp [ByteArray.get!, getElem!_pos bytes.data index (by simpa using inside)]
      rw [ByteArray.toList.loop, if_pos (by omega), ih (index + 1) _ (by omega),
        List.drop_eq_getElem_cons inside, List.reverse_cons, List.append_assoc,
        List.singleton_append, first]
  exact behind bytes.size 0 [] rfl

theorem decodeText_encodeText (text : String) (rest : List UInt8) :
    decodeText (encodeText text ++ rest) =
      if text.utf8ByteSize < 2 ^ 64 then some (text, rest) else none := by
  unfold decodeText encodeText
  rw [List.append_assoc, decodeLength_encodeNumber]
  by_cases fits : text.utf8ByteSize < 2 ^ 64
  · have length : text.toUTF8.toList.length = text.utf8ByteSize := by
      rw [toList_eq_data]
      rfl
    have split : splitBytes text.utf8ByteSize (text.toUTF8.toList ++ rest) =
        some (text.toUTF8.toList, rest) := by
      unfold splitBytes
      rw [if_neg (by rw [List.length_append, length]; omega), ← length, List.take_left,
        List.drop_left]
    have valid : String.fromUTF8? ⟨text.toUTF8.toList.toArray⟩ = some text := by
      rw [toList_eq_data, Array.toArray_toList]
      exact dif_pos text.isValidUTF8
    simp only [if_pos fits, Option.bind_eq_bind, Option.bind_some, split, valid]
  · rw [if_neg fits, if_neg fits]
    rfl

/-! ### Facts -/

theorem decodeFlag_encode (flag : Bool) (rest : List UInt8) :
    decodeFlag ((if flag then 1 else 0) :: rest) = some (flag, rest) := by
  cases flag <;> rfl

theorem decodeFacts_encode (fits : ∀ fact ∈ facts, fact.1.text.utf8ByteSize < 2 ^ 64)
    (rest : List UInt8) :
    decodeFacts facts.length (facts.flatMap encodeFact ++ rest) =
      some (facts.map fun fact => (fact.1.text, fact.2)) := by
  induction facts with
  | nil => rfl
  | cons fact later ih =>
    rw [List.forall_mem_cons] at fits
    rw [List.flatMap_cons, encodeFact, List.length_cons, decodeFacts, List.append_assoc,
      List.append_assoc, decodeText_encodeText, if_pos fits.1, List.singleton_append]
    simp only [Option.bind_eq_bind, Option.bind_some, decodeFlag_encode, ih fits.2, List.map_cons]

theorem decodeFacts_cut {part missing : List UInt8}
    (cut : facts.flatMap encodeFact = part ++ missing) (lacks : missing ≠ []) :
    decodeFacts facts.length part = none := by
  induction facts generalizing part with
  | nil => exact absurd (List.append_eq_nil_iff.mp cut.symm).2 lacks
  | cons fact later ih =>
    rw [List.flatMap_cons, encodeFact, List.append_assoc, List.singleton_append] at cut
    have whole : decodeText (part ++ missing) = none ∨ decodeText (part ++ missing) =
        some (fact.1.text, (if fact.2 then 1 else 0) :: later.flatMap encodeFact) := by
      rw [← cut, decodeText_encodeText]
      split
      · exact .inr rfl
      · exact .inl rfl
    rw [List.length_cons, decodeFacts]
    rcases decodeText_reads.cut whole with failed | ⟨left, read, goesOn⟩
    · rw [failed]
      rfl
    · simp only [read, Option.bind_eq_bind, Option.bind_some]
      have flagged := decodeFlag_encode fact.2 (later.flatMap encodeFact)
      rw [goesOn] at flagged
      rcases decodeFlag_reads.cut (.inr flagged) with failed | ⟨others, read, cutLater⟩
      · rw [failed]
        rfl
      · simp only [read, Option.bind_some, ih cutLater, Option.bind_none]

/-! ### Files -/

def Fits (facts : List (FuncKey × Bool)) : Prop :=
  facts.length < 2 ^ 64 ∧ ∀ fact ∈ facts, fact.1.text.utf8ByteSize < 2 ^ 64

theorem splitBytes_magic (rest : List UInt8) :
    splitBytes 4 (magic ++ rest) = some (magic, rest) := by
  unfold splitBytes
  rw [if_neg (by simp [magic])]
  rfl

theorem decodeParts_encode (fits : Fits facts) :
    decodeParts (encode facts) =
      some (magic, version, facts.map fun fact => (fact.1.text, fact.2)) := by
  have read := decodeFacts_encode fits.2 []
  rw [List.append_nil] at read
  unfold decodeParts encode
  simp only [List.append_assoc, splitBytes_magic, decodeVersion_encodeNumber,
    decodeLength_encodeNumber, if_pos fits.1, if_pos (by decide : version < 2 ^ 32),
    Option.bind_eq_bind, Option.bind_some, read]

theorem decodeParts_cut {part missing : List UInt8} (cut : encode facts = part ++ missing)
    (lacks : missing ≠ []) : decodeParts part = none := by
  unfold encode at cut
  rw [List.append_assoc, List.append_assoc] at cut
  have marked := splitBytes_magic
    (encodeNumber version ++ (encodeNumber facts.length ++ facts.flatMap encodeFact))
  rw [cut] at marked
  unfold decodeParts
  rcases (splitBytes_reads 4).cut (.inr marked) with failed | ⟨afterMark, read, cutVersion⟩
  · rw [failed]
    rfl
  · simp only [read, Option.bind_eq_bind, Option.bind_some]
    have numbered := decodeVersion_encodeNumber version
      (encodeNumber facts.length ++ facts.flatMap encodeFact)
    rw [cutVersion, if_pos (by decide)] at numbered
    rcases (decodeNumber_reads 15 5).cut (.inr numbered) with
      failed | ⟨afterVersion, read, cutCount⟩
    · rw [decodeVersion, failed]
      rfl
    · simp only [decodeVersion, read, Option.bind_some]
      have counted : decodeLength (afterVersion ++ missing) = none ∨
          decodeLength (afterVersion ++ missing) =
            some (facts.length, facts.flatMap encodeFact) := by
        rw [← cutCount, decodeLength_encodeNumber]
        split
        · exact .inr rfl
        · exact .inl rfl
      rcases (decodeNumber_reads 1 10).cut counted with failed | ⟨left, read, cutFacts⟩
      · rw [decodeLength, failed]
        rfl
      · simp only [decodeLength, read, Option.bind_some, decodeFacts_cut cutFacts lacks,
          Option.bind_none]

end FactFile

namespace FactStore

/-- The stores that there can be: new ones, those read from a file, and those
that another fact was written to. -/
inductive Made : FactStore → Prop where
  | fresh (fallback : OrderedMap Bool) : Made (withFallback fallback)
  | loaded {file : Option (List UInt8)} {store : FactStore} (read : load file = .ok store) :
      Made store
  | wrote {store after : FactStore} {key : FuncKey} {fact : Bool} (made : Made store)
      (wrote : store.write key fact = .ok after) : Made after

theorem Made.ascending {store : FactStore} (made : store.Made) : store.written.Ascending := by
  induction made with
  | fresh fallback => exact OrderedMap.empty_ascending
  | @loaded file store read =>
    cases file with
    | none => cases read
    | some bytes =>
      dsimp only [load, FactFile.decode] at read
      split at read
      · cases read
      · split at read
        · cases read
        · split at read
          · cases read
          · cases read
            exact OrderedMap.ofList_ascending _
  | @wrote store after key fact _ wrote ih =>
    rcases store.write_cases key fact with ⟨_, same⟩ | ⟨_, _, _, refused⟩ | ⟨_, added⟩
    · rw [same] at wrote
      cases wrote
      exact ih
    · rw [refused] at wrote
      cases wrote
    · rw [added] at wrote
      cases wrote
      exact OrderedMap.insert_ascending ih _ _

/-- A saved store is loaded with the same facts, and no strict part of its file from
the beginning can be loaded. -/
theorem load_save (store : FactStore) (made : store.Made) :
    (FactFile.Fits store.snapshot →
      ∃ loaded, load (some store.save) = .ok loaded ∧ loaded.snapshot = store.snapshot) ∧
    ∀ part, part <+: store.save → part ≠ store.save → load (some part) = .error .malformed := by
  constructor
  · intro fits
    have facts : (store.snapshot.map fun fact => (fact.1.text, fact.2)) = store.written.entries := by
      rw [snapshot, List.map_map]
      exact List.map_id _
    refine ⟨⟨store.written, .empty⟩, ?_, rfl⟩
    dsimp only [load, save, FactFile.decode]
    rw [FactFile.decodeParts_encode fits, facts]
    simp only [ne_eq, not_true_eq_false, if_false, OrderedMap.ofList_entries made.ascending,
      Except.map]
  · rintro part ⟨missing, whole⟩ strict
    have lacks : missing ≠ [] := by
      rintro rfl
      exact strict (by rwa [List.append_nil] at whole)
    dsimp only [load, FactFile.decode]
    rw [FactFile.decodeParts_cut whole.symm lacks]
    rfl

def longKey : FuncKey := ⟨"app." ++ String.ofList (List.replicate 70 'é')⟩

/-- A file with the fact about a long key, whole and cut inside the key. -/
theorem long_key_load_save :
    ∃ store loaded, empty.write longKey true = .ok store ∧
      load (some store.save) = .ok loaded ∧ loaded.snapshot = [(longKey, true)] ∧
      load (some (store.save.take 99)) = .error .malformed := by
  have wrote : empty.write longKey true = .ok ⟨⟨[(longKey.text, true)]⟩, .empty⟩ := rfl
  have fits : FactFile.Fits (FactStore.snapshot ⟨⟨[(longKey.text, true)]⟩, .empty⟩) := by
    refine ⟨by decide, List.forall_mem_singleton.mpr ?_⟩
    decide +kernel
  obtain ⟨whole, cut⟩ := load_save _ (.wrote (.fresh .empty) wrote)
  obtain ⟨loaded, read, same⟩ := whole fits
  refine ⟨_, loaded, wrote, read, same, cut _ (List.take_prefix 99 _) ?_⟩
  intro equal
  have shorter := congrArg List.length equal
  revert shorter
  decide +kernel

end FactStore
end Unclosed
