import Mathlib.Algebra.Group.Nat.Defs
import Unclosed.ErrorCode
import Unclosed.Proofs.ReachedPlaces

/-!
Codes as they are written and read.  A code is written as its family and the four
decimal places of its number.  Reading takes a number of four bytes, and these are
the four places, or a plus sign and the last three of them.
-/

namespace Unclosed.ErrorCode

open Grammar (byteLength utf8ByteSize_ofList)

variable {digit number : Nat} {text : List Char}

def places : Nat → Nat → List Char
  | 0, _ => []
  | count + 1, number => Nat.digitChar (number / 10 ^ count % 10) :: places count number

/-- The code with a plus sign in the place of the thousands. -/
def signed (family : Char) (number : Nat) : String :=
  String.ofList (family :: '+' :: places 3 number)

/-! ### Digits -/

theorem digit?_eq_some_iff {character : Char} :
    digit? character = some digit ↔ digit < 10 ∧ character = Nat.digitChar digit := by
  have range : ('0' ≤ character && character ≤ '9') = true ↔
      48 ≤ character.toNat ∧ character.toNat ≤ 57 := by
    rw [Bool.and_eq_true, decide_eq_true_iff, decide_eq_true_iff]
    rfl
  rw [digit?]
  constructor
  · intro read
    split at read
    · next inRange =>
      have bounds := range.mp inRange
      have value : character.toNat - 48 = digit := Option.some.inj read
      refine ⟨by omega, Char.toNat_inj.mp ?_⟩
      rw [Nat.toNat_digitChar_of_lt_ten (by omega)]
      omega
    · cases read
  · rintro ⟨small, rfl⟩
    have value := Nat.toNat_digitChar_of_lt_ten small
    rw [if_pos (range.mpr (by omega)), value]
    exact congrArg some (Nat.add_sub_cancel_left ..)

theorem digitChar_utf8Size (small : digit < 10) : (Nat.digitChar digit).utf8Size = 1 := by
  have value := Nat.toNat_digitChar_of_lt_ten small
  rw [Char.utf8Size_eq_one_iff, UInt32.le_iff_toNat_le]
  change (Nat.digitChar digit).toNat ≤ 127
  omega

/-! ### Places -/

theorem length_places (count number : Nat) : (places count number).length = count := by
  induction count with
  | zero => rfl
  | succ count ih => rw [places, List.length_cons, ih]

/-- Digits are single bytes. -/
theorem byteLength_places (count number : Nat) : byteLength (places count number) = count := by
  induction count with
  | zero => rfl
  | succ count ih =>
    rw [places, byteLength, ih, digitChar_utf8Size (Nat.mod_lt _ (by decide)), Nat.add_comm]

theorem places_zero (count : Nat) : places count 0 = List.replicate count '0' := by
  induction count with
  | zero => rfl
  | succ count ih => rw [places, ih, Nat.zero_div, List.replicate_succ]; rfl

/-- Places are read off from the low end as well. -/
theorem places_succ_last (count number : Nat) :
    places (count + 1) number = places count (number / 10) ++ [Nat.digitChar (number % 10)] := by
  induction count with
  | zero => simp [places]
  | succ count ih =>
    rw [places, ih, places, Nat.div_div_eq_div_mul, Nat.pow_succ', List.cons_append]

/-- The digits of a number, with zeros in front up to the width, are its places. -/
theorem padded_eq_places {width : Nat} (positive : 0 < width) (fits : number < 10 ^ width) :
    List.replicate (width - (Nat.toDigits 10 number).length) '0' ++ Nat.toDigits 10 number =
      places width number := by
  -- The last digit comes off on both sides, as long as there is one in front of it.
  induction width generalizing number with
  | zero => contradiction
  | succ width ih =>
    rw [places_succ_last, Nat.toDigits_eq_if (by decide)]
    split
    · next single =>
      rw [Nat.div_eq_of_lt single, Nat.mod_eq_of_lt single, places_zero]
      rfl
    · next several =>
      have shorter : number / 10 < 10 ^ width := by
        rw [Nat.pow_succ] at fits
        omega
      have wide : 0 < width := by
        apply Nat.pos_of_ne_zero
        rintro rfl
        omega
      rw [List.length_append, List.length_singleton, Nat.add_sub_add_right, ← List.append_assoc,
        ih wide shorter]

theorem digits_eq (number : Nat) :
    digits number = if number ≤ 9999 then places 4 number else Nat.toDigits 10 number := by
  split
  · next fits => exact padded_eq_places (by decide) (by omega)
  · next large =>
    have long : ¬(Nat.toDigits 10 number).length ≤ 4 := by
      rw [Nat.length_toDigits_le_iff (by decide) (by decide)]
      omega
    rw [digits, Nat.sub_eq_zero_of_le (by omega)]
    rfl

theorem format_eq (family : Char) (small : number ≤ 9999) :
    format family number = String.ofList (family :: places 4 number) := by
  rw [format, digits_eq, if_pos small]

/-! ### Numbers -/

/-- Reading goes on to a number exactly when the value so far is what stands in front
of the places that are left. -/
theorem numberFrom_eq_some_iff {value : Nat} :
    numberFrom value text = some number ↔
      value = number / 10 ^ text.length ∧ text = places text.length number := by
  induction text generalizing value with
  | nil => simp [numberFrom, places]
  | cons next rest ih =>
    have split : number / 10 ^ (rest.length + 1) = number / 10 ^ rest.length / 10 := by
      rw [Nat.pow_succ, Nat.div_div_eq_div_mul]
    rw [List.length_cons, places, List.cons.injEq, split]
    constructor
    · intro read
      rw [numberFrom] at read
      cases found : digit? next with
      | none => simp [found] at read
      | some digit =>
        obtain ⟨small, rfl⟩ := digit?_eq_some_iff.mp found
        simp only [found] at read
        obtain ⟨front, left⟩ := ih.mp read
        have last : number / 10 ^ rest.length % 10 = digit := by omega
        exact ⟨by omega, by rw [last], left⟩
    · rintro ⟨front, rfl, left⟩
      have found := digit?_eq_some_iff.mpr
        ⟨Nat.mod_lt (number / 10 ^ rest.length) (by decide : 0 < 10), rfl⟩
      rw [numberFrom, found]
      exact ih.mpr ⟨by omega, left⟩

theorem numberFrom_zero_eq_some_iff :
    numberFrom 0 text = some number ↔
      ∃ count, number < 10 ^ count ∧ text = places count number := by
  rw [numberFrom_eq_some_iff, eq_comm, Nat.div_eq_zero_iff_lt (Nat.pow_pos (by decide))]
  constructor
  · rintro ⟨fits, same⟩
    exact ⟨text.length, fits, same⟩
  · rintro ⟨count, fits, rfl⟩
    rw [length_places]
    exact ⟨fits, rfl⟩

theorem plus_cons_ne_places (rest : List Char) (count number : Nat) :
    '+' :: rest ≠ places count number := by
  cases count with
  | zero => exact List.cons_ne_nil _ _
  | succ count =>
    intro same
    have digit := digit?_eq_some_iff.mpr
      ⟨Nat.mod_lt (number / 10 ^ count) (by decide), (List.cons.inj same).1⟩
    exact absurd digit (by simp [digit?])

/-- A number is read from its places, if they hold all of it, and from a plus sign
in front of them. -/
theorem parseNumber_eq_some_iff :
    parseNumber text = some number ↔ ∃ count, 0 < count ∧ number < 10 ^ count ∧
      (text = places count number ∨ text = '+' :: places count number) := by
  fun_cases parseNumber text with
  | case1 =>
    constructor
    · rintro ⟨⟩
    · rintro ⟨count, positive, -, same | same⟩
      · rw [← length_places count number, ← same] at positive
        contradiction
      · cases same
  | case2 first rest =>
    rw [numberFrom_zero_eq_some_iff]
    constructor
    · rintro ⟨count, fits, same⟩
      refine ⟨count, ?_, fits, .inr (congrArg _ same)⟩
      rw [← length_places count number, ← same]
      exact Nat.succ_pos _
    · rintro ⟨count, -, fits, same | same⟩
      · exact absurd same (plus_cons_ne_places _ _ _)
      · exact ⟨count, fits, (List.cons.inj same).2⟩
  | case3 _ nonempty unsigned =>
    rw [numberFrom_zero_eq_some_iff]
    constructor
    · rintro ⟨count, fits, same⟩
      refine ⟨count, Nat.pos_of_ne_zero ?_, fits, .inl same⟩
      rintro rfl
      exact nonempty same
    · rintro ⟨count, positive, fits, same | same⟩
      · exact ⟨count, fits, same⟩
      · obtain ⟨fewer, rfl⟩ := Nat.exists_eq_add_one.mpr positive
        exact (unsigned _ _ same).elim

/-! ### Codes -/

theorem parse_eq_some_iff {code : String} {family : Char} :
    parse code = some (family, number) ↔ ∃ text, code = String.ofList (family :: text) ∧
      (family = 'C' ∨ family = 'E') ∧ byteLength text = 4 ∧ parseNumber text = some number := by
  have listed (text : List Char) :
      code = String.ofList (family :: text) ↔ code.toList = family :: text := by
    rw [← String.toList_inj, String.toList_ofList]
  simp only [listed]
  rw [parse]
  cases code.toList with
  | nil => simp
  | cons first rest =>
    simp only [utf8ByteSize_ofList]
    constructor
    · intro read
      split at read
      · next shape =>
        obtain ⟨value, found, same⟩ := Option.map_eq_some_iff.mp read
        obtain ⟨rfl, rfl⟩ := Prod.mk.inj same
        simp only [Bool.and_eq_true, Bool.or_eq_true, decide_eq_true_iff] at shape
        exact ⟨rest, rfl, shape.1, shape.2, found⟩
      · cases read
    · rintro ⟨text, same, known, size, found⟩
      obtain ⟨rfl, rfl⟩ := List.cons.inj same
      rw [if_pos (by simp [known, size]), found]
      rfl

/-- A code is read as a family and a number exactly when it is how these two are
written, or how they are written with a plus sign in the place of a leading zero.
What is written has four decimal places, or more if the number does not fit. -/
theorem parse_iff_written_or_signed (code : String) (family : Char) (number : Nat) :
    (parse code = some (family, number) ↔
      (family = 'C' ∨ family = 'E') ∧ number ≤ 9999 ∧
        (code = format family number ∨ number ≤ 999 ∧ code = signed family number)) ∧
    (format family number).toList =
      family :: if number ≤ 9999 then places 4 number else Nat.toDigits 10 number := by
  refine ⟨?_, by rw [format, String.toList_ofList, digits_eq]⟩
  rw [parse_eq_some_iff]
  constructor
  · rintro ⟨text, rfl, known, size, read⟩
    refine ⟨known, ?_⟩
    -- Digits and the sign are single bytes, so the size of the text tells how many there are.
    obtain ⟨count, -, fits, rfl | rfl⟩ := parseNumber_eq_some_iff.mp read
    · obtain rfl : count = 4 := (byteLength_places count number).symm.trans size
      have small : number ≤ 9999 := Nat.le_of_lt_succ fits
      exact ⟨small, .inl (format_eq family small).symm⟩
    · obtain rfl : count = 3 := by
        have places := byteLength_places count number
        have plus : Char.utf8Size '+' = 1 := rfl
        rw [byteLength] at size
        omega
      have small : number ≤ 999 := Nat.le_of_lt_succ fits
      exact ⟨by omega, .inr ⟨small, rfl⟩⟩
  · rintro ⟨known, small, rfl | ⟨smaller, rfl⟩⟩
    · refine ⟨places 4 number, format_eq family small, known, byteLength_places 4 number, ?_⟩
      exact parseNumber_eq_some_iff.mpr ⟨4, by decide, by omega, .inl rfl⟩
    · refine ⟨'+' :: places 3 number, rfl, known, ?_, ?_⟩
      · rw [byteLength, byteLength_places]
        rfl
      · exact parseNumber_eq_some_iff.mpr ⟨3, by decide, by omega, .inr rfl⟩

/-- The code of invalid syntax is read from a text that is not how it is written and
that is not registered. -/
theorem signed_code_read :
    parse "E+001" = some ('E', 1) ∧ "E+001" ≠ format 'E' 1 ∧
      isRegistered (format 'E' 1) = true ∧ isRegistered "E+001" = false := by
  decide

end Unclosed.ErrorCode
