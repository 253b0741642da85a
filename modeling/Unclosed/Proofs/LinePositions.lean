import Mathlib.Data.List.GetD
import Mathlib.Data.Prod.Lex
import Mathlib.Data.String.Basic
import Mathlib.Order.Monotone.Defs
import Unclosed.Source.Map

/-!
Byte offsets of a file correspond to lines and columns.  The line of an offset counts
the line feeds before it, its column the bytes since the last of them, so offsets and
positions are in the same order.  Columns are machine words, so the last offset of all
has no column in a file of one line.  A text without carriage returns is its lines, joined.
-/

namespace Unclosed

variable (offset : Nat) (characters : List Char)

/-! ### Line feeds among the bytes -/

def lineFeed : UInt8 := 10

theorem le_or_right (byte mark : UInt8) : mark ≤ byte ||| mark := by
  rw [UInt8.le_iff_toNat_le, UInt8.toNat_or]
  exact Nat.right_le_or

/-- Only the character has the byte: those of longer characters are above it. -/
theorem lineFeed_not_mem {character : Char} (other : character ≠ '\n') :
    lineFeed ∉ String.utf8EncodeChar character := by
  have above {byte mark : UInt8} (high : lineFeed < mark) : lineFeed ≠ byte ||| mark := by
    intro same
    have := le_or_right byte mark
    rw [← same, UInt8.le_iff_toNat_le] at this
    rw [UInt8.lt_iff_toNat_lt] at high
    omega
  rcases Char.utf8Size_eq character with one | two | three | four
  · rw [String.utf8EncodeChar_eq_singleton one, List.mem_singleton]
    intro same
    have small := UInt32.le_iff_toNat_le.mp (Char.utf8Size_eq_one_iff.mp one)
    have value := congrArg UInt8.toNat same
    rw [UInt32.toNat_toUInt8, Nat.mod_eq_of_lt (Nat.lt_of_le_of_lt small (by decide))] at value
    exact other (Char.ext (UInt32.toNat_inj.mp value.symm))
  · rw [String.utf8EncodeChar_eq_cons_cons two]
    simp only [List.mem_cons, List.not_mem_nil, or_false, not_or]
    exact ⟨above (by decide), above (by decide)⟩
  · rw [String.utf8EncodeChar_eq_cons_cons_cons three]
    simp only [List.mem_cons, List.not_mem_nil, or_false, not_or]
    exact ⟨above (by decide), above (by decide), above (by decide)⟩
  · rw [String.utf8EncodeChar_eq_cons_cons_cons_cons four]
    simp only [List.mem_cons, List.not_mem_nil, or_false, not_or]
    exact ⟨above (by decide), above (by decide), above (by decide), above (by decide)⟩

namespace SourceFile

variable (file : SourceFile)

def bytes : List UInt8 := file.content.toUTF8.data.toList

theorem bytes_eq : file.bytes = file.content.toList.flatMap String.utf8EncodeChar := by
  have encoded : file.content.toByteArray = file.content.toList.utf8Encode := by
    rw [← String.toByteArray_ofList, String.ofList_toList]
  rw [bytes, String.toUTF8_eq_toByteArray, encoded, List.utf8Encode, List.data_toByteArray]

theorem lineStartsFrom_eq :
    lineStartsFrom offset characters =
      ((characters.flatMap String.utf8EncodeChar).findIdxs (· == lineFeed) offset).map (· + 1) := by
  induction characters generalizing offset with
  | nil => rfl
  | cons next rest ih =>
    rw [List.flatMap_cons, List.findIdxs_append, List.map_append, String.length_utf8EncodeChar,
      ← ih]
    by_cases feed : next = '\n'
    · rw [feed]
      rfl
    · have none : (String.utf8EncodeChar next).findIdxs (· == lineFeed) offset = [] := by
        rw [List.findIdxs_eq_nil_iff]
        intro byte member
        rw [beq_eq_false_iff_ne]
        rintro rfl
        exact lineFeed_not_mem feed member
      rw [none, lineStartsFrom, if_neg feed]
      rfl

/-- The lines that have started: the first one, and one behind each line feed. -/
theorem started_eq :
    file.lineStarts.filter (· ≤ offset) =
      0 :: ((file.bytes.take offset).findIdxs (· == lineFeed)).map (· + 1) := by
  rw [lineStarts, lineStartsFrom_eq, ← bytes_eq, List.filter_cons_of_pos (by simp)]
  congr 1
  conv_lhs => rw [← List.take_append_drop offset file.bytes]
  rw [List.findIdxs_append, List.map_append, List.filter_append]
  have before : (((file.bytes.take offset).findIdxs (· == lineFeed)).map (· + 1)).filter
      (· ≤ offset) = ((file.bytes.take offset).findIdxs (· == lineFeed)).map (· + 1) := by
    rw [List.filter_eq_self]
    intro start member
    obtain ⟨place, found, rfl⟩ := List.mem_map.mp member
    have := List.lt_add_of_mem_findIdxs place found
    rw [List.length_take] at this
    simp only [decide_eq_true_eq]
    omega
  have behind : (((file.bytes.drop offset).findIdxs (· == lineFeed)
      (0 + (file.bytes.take offset).length)).map (· + 1)).filter (· ≤ offset) = [] := by
    rw [List.filter_eq_nil_iff]
    intro start member
    obtain ⟨place, found, rfl⟩ := List.mem_map.mp member
    have low := List.ge_of_mem_findIdxs place found
    have high := List.lt_add_of_mem_findIdxs place found
    rw [List.length_take] at low high
    rw [List.length_drop] at high
    simp only [decide_eq_true_eq]
    omega
  rw [before, behind, List.append_nil]

theorem length_started : (file.lineStarts.filter (· ≤ offset)).length =
    1 + (file.bytes.take offset).count lineFeed := by
  rw [started_eq, List.length_cons, List.length_map, List.length_findIdxs, Nat.add_comm]
  rfl

/-! ### Starts of lines -/

/-- The line that an offset is on starts at the place: at the start of the file or behind a
line feed, with no line feed from there to the offset. -/
structure StartsLine (file : SourceFile) (offset start : Nat) : Prop where
  le : start ≤ offset
  begins : start = 0 ∨ ∃ last, start = last + 1 ∧ file.bytes[last]? = some lineFeed
  unbroken : ∀ place, start ≤ place → place < offset → file.bytes[place]? ≠ some lineFeed

theorem mem_feeds (place : Nat) :
    place ∈ (file.bytes.take offset).findIdxs (· == lineFeed) ↔
      place < offset ∧ file.bytes[place]? = some lineFeed := by
  rw [List.mem_findIdxs_iff_exists_getElem_pos, List.getElem?_eq_some_iff]
  simp only [List.length_take, List.getElem_take, beq_iff_eq, lt_inf_iff]
  constructor
  · rintro ⟨⟨before, inside⟩, feed⟩
    exact ⟨before, inside, feed⟩
  · rintro ⟨before, inside, feed⟩
    exact ⟨⟨before, inside⟩, feed⟩

def lineStart (offset : Nat) : Nat :=
  (file.lineStarts.filter (· ≤ offset)).getLast?.getD 0

theorem lineStart_startsLine : file.StartsLine offset (file.lineStart offset) := by
  have feeds := file.mem_feeds offset
  rw [lineStart, started_eq]
  rcases List.eq_nil_or_concat ((file.bytes.take offset).findIdxs (· == lineFeed)) with
    none | ⟨earlier, last, found⟩
  · rw [none] at feeds ⊢
    refine ⟨Nat.zero_le _, .inl rfl, fun place _ before feed => ?_⟩
    exact List.not_mem_nil ((feeds place).mpr ⟨before, feed⟩)
  · have ascending : ((file.bytes.take offset).findIdxs (· == lineFeed)).Pairwise (· < ·) :=
      List.pairwise_findIdxs
    rw [List.concat_eq_append] at found
    rw [found] at feeds ascending ⊢
    have isLast : (0 :: (earlier ++ [last]).map (· + 1)).getLast?.getD 0 = last + 1 := by
      rw [List.map_append, ← List.cons_append, List.map_singleton, List.getLast?_concat,
        Option.getD_some]
    obtain ⟨before, feed⟩ := (feeds last).mp (by simp)
    rw [isLast]
    refine ⟨before, .inr ⟨last, rfl, feed⟩, fun place behind before feed => ?_⟩
    -- A line feed behind the last one would be listed behind it.
    have listed := (feeds place).mpr ⟨before, feed⟩
    rw [List.mem_append, List.mem_singleton] at listed
    rw [List.pairwise_append] at ascending
    rcases listed with inEarlier | same
    · have := ascending.2.2 place inEarlier last (by simp)
      omega
    · omega

/-! ### The search for a line -/

theorem lineStarts_ascending : file.lineStarts.Pairwise (· < ·) := by
  rw [lineStarts, lineStartsFrom_eq, List.pairwise_cons, List.pairwise_map]
  refine ⟨fun start member => ?_, ?_⟩
  · obtain ⟨place, _, rfl⟩ := List.mem_map.mp member
    exact Nat.succ_pos place
  · exact List.pairwise_findIdxs.imp Nat.succ_lt_succ

/-- The line at the place starts no later than the offset, and the next one later. -/
structure LastStart (starts : List Nat) (offset place : Nat) : Prop where
  inside : place < starts.length
  started : starts.getD place 0 ≤ offset
  later : ∀ other, place < other → other < starts.length → offset < starts.getD other 0

theorem getD_le_getD {starts : List Nat} (ascending : starts.Pairwise (· < ·)) {first second : Nat}
    (ordered : first ≤ second) (inside : second < starts.length) :
    starts.getD first 0 ≤ starts.getD second 0 := by
  rw [List.getD_eq_getElem _ _ (by omega), List.getD_eq_getElem _ _ inside]
  rcases Nat.lt_or_eq_of_le ordered with less | rfl
  · exact Nat.le_of_lt (List.pairwise_iff_getElem.mp ascending first second _ _ less)
  · exact Nat.le_refl _

/-- Halving keeps a line that has started, and behind it only lines that have not. -/
theorem narrow_lastStart {starts : List Nat} (ascending : starts.Pairwise (· < ·))
    {offset base size : Nat} (inhabited : 0 < size) (inside : base + size ≤ starts.length)
    (started : starts.getD base 0 ≤ offset)
    (later : ∀ other, base + size ≤ other → other < starts.length → offset < starts.getD other 0) :
    LastStart starts offset (narrow starts.toArray offset base size) := by
  fun_induction narrow starts.toArray offset base size with
  | case1 base size single =>
    refine ⟨by omega, started, fun other behind below => later other (by omega) below⟩
  | case2 base size several half middle ih =>
    have read : starts.toArray.getD middle 0 = starts.getD middle 0 := by
      simp [Array.getD_eq_getD_getElem?, List.getD_eq_getElem?_getD]
    simp only [read] at ih ⊢
    split at ih
    · next before =>
      rw [if_pos before]
      refine ih (by omega) (by omega) started fun other behind below => ?_
      exact Nat.lt_of_lt_of_le before (getD_le_getD ascending (by omega) below)
    · next reached =>
      rw [if_neg reached]
      exact ih (by omega) (by omega) (Nat.le_of_not_lt reached) fun other behind below =>
        later other (by omega) below

theorem lastStart_search {starts : List Nat} (ascending : starts.Pairwise (· < ·))
    (inhabited : 0 < starts.length) (started : starts.getD 0 0 ≤ offset) :
    ∃ place, LastStart starts offset place ∧
      (search starts.toArray offset = .ok place ∨
        search starts.toArray offset = .error (place + 1)) := by
  have last : LastStart starts offset (narrow starts.toArray offset 0 starts.length) :=
    narrow_lastStart ascending inhabited (by omega) started fun other behind below => by omega
  have some : starts.toArray.isEmpty = false := by simpa using List.ne_nil_of_length_pos inhabited
  refine ⟨_, last, ?_⟩
  rw [search, some, if_neg (by simp), List.size_toArray]
  generalize narrow starts.toArray offset 0 starts.length = place at last
  have read : starts.toArray.getD place 0 = starts.getD place 0 := by
    simp [Array.getD_eq_getD_getElem?, List.getD_eq_getElem?_getD]
  simp only [read]
  rcases Nat.lt_or_eq_of_le last.started with before | here
  · rw [if_neg (Nat.ne_of_lt before), if_pos before]
    exact .inr rfl
  · rw [if_pos here]
    exact .inl rfl

theorem LastStart.started_lines {starts : List Nat} (ascending : starts.Pairwise (· < ·))
    {offset place : Nat} (last : LastStart starts offset place) :
    starts.filter (· ≤ offset) = starts.take (place + 1) := by
  conv_lhs => rw [← List.take_append_drop (place + 1) starts]
  rw [List.filter_append, List.filter_eq_self.mpr, List.filter_eq_nil_iff.mpr, List.append_nil]
  · intro start member
    obtain ⟨index, below, rfl⟩ := List.getElem_of_mem member
    rw [List.length_drop] at below
    have later := last.later (place + 1 + index) (by omega) (by omega)
    rw [List.getD_eq_getElem _ _ (by omega)] at later
    rw [List.getElem_drop]
    simpa using later
  · intro start member
    obtain ⟨index, below, rfl⟩ := List.getElem_of_mem member
    rw [List.length_take] at below
    have inside := last.inside
    have before := getD_le_getD ascending (show index ≤ place by omega) inside
    rw [List.getD_eq_getElem _ _ (by omega)] at before
    rw [List.getElem_take]
    simpa using Nat.le_trans before last.started

/-! ### Lines and columns -/

/-- The line counts the line feeds before the offset, the column the bytes from its start. -/
theorem lineColumn_eq :
    file.lineColumn offset =
      (1 + (file.bytes.take offset).count lineFeed, nextWord (offset - file.lineStart offset)) := by
  have ascending := file.lineStarts_ascending
  obtain ⟨place, last, found⟩ :=
    lastStart_search offset ascending (Nat.succ_pos _) (Nat.zero_le _)
  have inside := last.inside
  have started := last.started_lines ascending
  have count : place + 1 = 1 + (file.bytes.take offset).count lineFeed := by
    rw [← length_started, started, List.length_take]
    omega
  have start : file.lineStarts.toArray.getD place 0 = file.lineStart offset := by
    rw [lineStart, started, List.getLast?_take]
    simp [Array.getD_eq_getD_getElem?, List.getElem?_eq_getElem inside]
  have answer : file.lineColumn offset =
      (place + 1, nextWord (offset - file.lineStarts.toArray.getD place 0)) := by
    rcases found with hit | miss
    · rw [lineColumn, hit]
    · rw [lineColumn, miss]
      rfl
  rw [answer, count, start]

/-- The column of the offset is a machine word. -/
def Placed (file : SourceFile) (offset : Nat) : Prop :=
  offset < UInt64.size ∧ (offset + 1 = UInt64.size → lineFeed ∈ file.bytes.take offset)

theorem lineColumn_placed (placed : file.Placed offset) :
    file.lineColumn offset =
      (1 + (file.bytes.take offset).count lineFeed, 1 + (offset - file.lineStart offset)) := by
  have word : offset - file.lineStart offset + 1 < UInt64.size := by
    obtain ⟨below, broken⟩ := placed
    rcases Nat.lt_or_eq_of_le (Nat.succ_le_of_lt below) with less | last
    · exact Nat.lt_of_le_of_lt (Nat.succ_le_succ (Nat.sub_le _ _)) less
    · -- Behind a line feed the line starts later than the file.
      have starts := file.lineStart_startsLine offset
      obtain ⟨place, inside, feed⟩ := List.getElem_of_mem (broken last)
      have positive : file.lineStart offset ≠ 0 := fun first => by
        rw [List.length_take] at inside
        rw [List.getElem_take] at feed
        refine starts.unbroken place (by omega) (by omega) ?_
        rw [List.getElem?_eq_getElem (by omega), feed]
      have := starts.le
      omega
  rw [lineColumn_eq, nextWord, Nat.mod_eq_of_lt word, Nat.add_comm _ 1]

/-- The last offset of all, in a file of one line. -/
theorem lineColumn_unplaced (below : offset < UInt64.size) (unplaced : ¬file.Placed offset) :
    file.lineColumn offset = (1, 0) := by
  obtain ⟨last, unbroken⟩ : offset + 1 = UInt64.size ∧ lineFeed ∉ file.bytes.take offset := by
    simpa [Placed, below] using unplaced
  have none : (file.bytes.take offset).findIdxs (· == lineFeed) = [] := by
    rw [List.findIdxs_eq_nil_iff]
    intro byte member
    rw [beq_eq_false_iff_ne]
    rintro rfl
    exact unbroken member
  have first : file.lineStart offset = 0 := by
    rw [lineStart, started_eq, none]
    rfl
  rw [lineColumn_eq, first, List.count_eq_zero_of_not_mem unbroken, nextWord, Nat.sub_zero, last,
    Nat.mod_self]

/-- A later offset is on a later line, or further right on the same line. -/
theorem lineColumn_strictMonoOn :
    StrictMonoOn (fun offset => toLex (file.lineColumn offset)) {offset | file.Placed offset} := by
  intro first placedFirst second placedSecond less
  have part : (file.lineStarts.filter (· ≤ first)).Sublist
      (file.lineStarts.filter (· ≤ second)) := by
    apply List.monotone_filter_right
    intro start reached
    simp only [decide_eq_true_eq] at reached ⊢
    omega
  dsimp only
  rw [lineColumn_placed _ _ placedFirst, lineColumn_placed _ _ placedSecond, ← length_started,
    ← length_started, Prod.Lex.toLex_lt_toLex]
  rcases Nat.lt_or_eq_of_le part.length_le with fewer | same
  · exact .inl fewer
  · have sameStart : file.lineStart first = file.lineStart second := by
      rw [lineStart, lineStart, part.eq_of_length same]
    have reached := (file.lineStart_startsLine first).le
    refine .inr ⟨same, ?_⟩
    rw [sameStart]
    dsimp only
    omega

end SourceFile

/-! ### Regions -/

/-- The region of a range starts no later than it ends. -/
theorem SourceMap.region?_ordered {sources : SourceMap} {id : FileId} {file : SourceFile}
    (registered : sources.file? id = some file) {start stop : Nat} (placed : file.Placed start)
    (placedStop : file.Placed (max stop start)) :
    ∃ region, sources.region? id start stop = some region
      ∧ region.start = file.position start
      ∧ region.start.offset ≤ region.stop.offset
      ∧ toLex (region.start.line, region.start.column)
        ≤ toLex (region.stop.line, region.stop.column) := by
  refine ⟨_, by rw [region?, registered]; rfl, rfl, Nat.le_max_right stop start, ?_⟩
  exact file.lineColumn_strictMonoOn.monotoneOn placed placedStop (Nat.le_max_right stop start)

namespace SourceFile

/-! ### Lines of a text -/

def splitLines : List Char → List (List Char)
  | [] => [[]]
  | next :: rest =>
    if next = '\n' then [] :: splitLines rest
    else
      match splitLines rest with
      | [] => [[next]]
      | line :: later => (next :: line) :: later

theorem splitLines_ne_nil : splitLines characters ≠ [] := by
  cases characters with
  | nil => simp [splitLines]
  | cons next rest =>
    rw [splitLines]
    split
    · simp
    · split <;> simp

theorem length_splitLines :
    (splitLines characters).length = (lineStartsFrom offset characters).length + 1 := by
  induction characters generalizing offset with
  | nil => rfl
  | cons next rest ih =>
    rw [splitLines, lineStartsFrom]
    by_cases feed : next = '\n'
    · rw [if_pos feed, if_pos feed, List.length_cons, List.length_cons, ih (offset + next.utf8Size)]
    · rw [if_neg feed, if_neg feed, ← ih (offset + next.utf8Size)]
      split
      · next empty => exact absurd empty (splitLines_ne_nil rest)
      · next whole => rw [whole, List.length_cons, List.length_cons]

theorem intercalate_splitLines : ['\n'].intercalate (splitLines characters) = characters := by
  induction characters with
  | nil => rfl
  | cons next rest ih =>
    rw [splitLines]
    split
    · next feed =>
      obtain ⟨line, later, whole⟩ := List.exists_cons_of_ne_nil (splitLines_ne_nil rest)
      rw [whole] at ih ⊢
      rw [List.intercalate_cons_cons, ih, feed]
      rfl
    · split
      · next empty => exact absurd empty (splitLines_ne_nil rest)
      · next line later whole =>
        rw [whole] at ih
        rw [← ih]
        cases later with
        | nil => simp
        | cons second others => simp [List.intercalate_cons_cons]

theorem mem_of_mem_splitLines {characters line : List Char} {character : Char}
    (listed : line ∈ splitLines characters) (member : character ∈ line) :
    character ∈ characters := by
  fun_induction splitLines characters generalizing line with
  | case1 =>
    rw [List.mem_singleton] at listed
    exact listed ▸ member
  | case2 rest ih =>
    rcases List.mem_cons.mp listed with rfl | later
    · cases member
    · exact List.mem_cons_of_mem _ (ih later member)
  | case3 next rest _ empty => exact absurd empty (splitLines_ne_nil rest)
  | case4 next rest _ first others whole ih =>
    rw [whole] at ih
    rcases List.mem_cons.mp listed with rfl | later
    · rcases List.mem_cons.mp member with rfl | inFirst
      · exact List.mem_cons_self
      · exact List.mem_cons_of_mem _ (ih List.mem_cons_self inFirst)
    · exact List.mem_cons_of_mem _ (ih (List.mem_cons_of_mem _ later) member)

theorem lineFeed_not_mem_splitLines {characters line : List Char}
    (listed : line ∈ splitLines characters) : '\n' ∉ line := by
  fun_induction splitLines characters generalizing line with
  | case1 =>
    rw [List.mem_singleton] at listed
    simp [listed]
  | case2 rest ih =>
    rcases List.mem_cons.mp listed with rfl | later
    · exact List.not_mem_nil
    · exact ih later
  | case3 next rest _ empty => exact absurd empty (splitLines_ne_nil rest)
  | case4 next rest other first others whole ih =>
    rw [whole] at ih
    rcases List.mem_cons.mp listed with rfl | later
    · rw [List.mem_cons, not_or]
      exact ⟨fun same => other same.symm, ih List.mem_cons_self⟩
    · exact ih (List.mem_cons_of_mem _ later)

/-- A line starts where the table of line starts says, and the next one behind its line feed. -/
theorem splitLines_placed {index : Nat} {line : List Char}
    (listed : (splitLines characters)[index]? = some line) :
    ∃ before after, characters = before ++ line ++ after ∧
      (offset :: lineStartsFrom offset characters)[index]? = some (offset + String.utf8Len before) ∧
      ((lineStartsFrom offset characters)[index]? = none ∧ after = [] ∨
        ∃ rest, after = '\n' :: rest ∧ (lineStartsFrom offset characters)[index]? =
          some (offset + String.utf8Len before + String.utf8Len (line ++ ['\n']))) := by
  fun_induction splitLines characters generalizing offset index line with
  | case1 =>
    cases index with
    | zero =>
      cases listed
      exact ⟨[], [], rfl, rfl, .inl ⟨rfl, rfl⟩⟩
    | succ => cases listed
  | case2 rest ih =>
    cases index with
    | zero =>
      cases listed
      exact ⟨[], '\n' :: rest, rfl, rfl, .inr ⟨rest, rfl, by simp [lineStartsFrom]⟩⟩
    | succ index =>
      obtain ⟨before, after, rfl, start, stop⟩ := ih (offset + '\n'.utf8Size) listed
      refine ⟨'\n' :: before, after, rfl, ?_, ?_⟩
      · rw [List.getElem?_cons_succ, lineStartsFrom, if_pos rfl, start, String.utf8Len_cons]
        congr 1
        omega
      · rw [lineStartsFrom, if_pos rfl, List.getElem?_cons_succ]
        rcases stop with last | ⟨rest, shape, next⟩
        · exact .inl last
        · refine .inr ⟨rest, shape, ?_⟩
          rw [next, String.utf8Len_cons]
          congr 1
          omega
  | case3 next rest _ empty => exact absurd empty (splitLines_ne_nil rest)
  | case4 next rest other first others whole ih =>
    rw [whole] at ih
    rw [lineStartsFrom, if_neg other]
    cases index with
    | zero =>
      cases listed
      obtain ⟨before, after, split, start, stop⟩ := ih (offset + next.utf8Size)
        (show (first :: others)[0]? = some first from rfl)
      have none : before = [] := by
        rw [List.getElem?_cons_zero, Option.some_inj] at start
        exact String.utf8Len_eq_zero.mp (by omega)
      subst none
      refine ⟨[], after, by rw [split]; rfl, rfl, ?_⟩
      rcases stop with last | ⟨rest, shape, next⟩
      · exact .inl last
      · refine .inr ⟨rest, shape, ?_⟩
        rw [next, List.cons_append, String.utf8Len_cons]
        simp only [String.utf8Len_nil]
        congr 1
        omega
    | succ index =>
      obtain ⟨before, after, split, start, stop⟩ := ih (offset + next.utf8Size)
        (show (first :: others)[index + 1]? = some line from listed)
      refine ⟨next :: before, after, by rw [split]; rfl, ?_, ?_⟩
      · rw [List.getElem?_cons_succ] at start ⊢
        rw [start, String.utf8Len_cons]
        congr 1
        omega
      · rcases stop with last | ⟨rest, shape, next⟩
        · exact .inl last
        · refine .inr ⟨rest, shape, ?_⟩
          rw [next, String.utf8Len_cons]
          congr 1
          omega

theorem dropLineEnds_append_lineFeed (line : List Char) :
    dropLineEnds (line ++ ['\n']) = dropLineEnds line := by
  simp [dropLineEnds]

theorem dropLineEnds_eq_self {line : List Char} (unended : '\n' ∉ line) (unreturned : '\r' ∉ line) :
    dropLineEnds line = line := by
  have kept : line.reverse.dropWhile (fun next => next == '\n' || next == '\r') = line.reverse := by
    cases reversed : line.reverse with
    | nil => rfl
    | cons last earlier =>
      have inLine : last ∈ line := List.mem_reverse.mp (by rw [reversed]; exact List.mem_cons_self)
      apply List.dropWhile_cons_of_neg
      rw [Bool.or_eq_true, beq_iff_eq, beq_iff_eq]
      rintro (rfl | rfl)
      · exact unended inLine
      · exact unreturned inLine
  rw [dropLineEnds, kept, List.reverse_reverse]

theorem length_lineStarts (file : SourceFile) :
    file.lineStarts.length = (splitLines file.content.toList).length := by
  rw [length_splitLines 0, lineStarts, List.length_cons]

/-- The slice between two line starts is a line with its terminator. -/
theorem line?_succ (file : SourceFile) (index : Nat) :
    file.line? (index + 1) =
      (splitLines file.content.toList)[index]?.map fun line => String.ofList (dropLineEnds line) := by
  have length := file.length_lineStarts
  cases listed : (splitLines file.content.toList)[index]? with
  | none =>
    rw [List.getElem?_eq_none_iff] at listed
    rw [line?, if_pos (.inr (by simp; omega))]
    rfl
  | some line =>
    obtain ⟨inside, _⟩ := List.getElem?_eq_some_iff.mp listed
    obtain ⟨before, after, split, start, stop⟩ := splitLines_placed 0 _ listed
    have text : file.content = String.ofList (before ++ line ++ after) := by
      rw [← split, String.ofList_toList]
    have starts : file.lineStarts.toArray.getD index 0 = String.utf8Len before := by
      simp [Array.getD_eq_getD_getElem?, lineStarts, start]
    rw [line?, if_neg (by simp; omega)]
    simp only [Nat.add_sub_cancel, starts, Option.map_some]
    rcases stop with ⟨last, rfl⟩ | ⟨rest, rfl, next⟩
    · rw [List.getElem?_eq_none_iff] at last
      rw [if_neg (by simp [lineStarts]; omega), text, String.utf8ByteSize_ofList,
        String.utf8Len_append, String.utf8Len_append, String.utf8Len_nil, Nat.add_zero,
        String.extract_of_valid, String.toList_ofList]
    · have more := (List.getElem?_eq_some_iff.mp next).1
      have stops : file.lineStarts.toArray.getD (index + 1) 0 =
          String.utf8Len before + String.utf8Len (line ++ ['\n']) := by
        simp only [Array.getD_eq_getD_getElem?, lineStarts, List.getElem?_toArray,
          List.getElem?_cons_succ, next, Option.getD_some, Nat.zero_add]
      have shape : before ++ line ++ '\n' :: rest = before ++ (line ++ ['\n']) ++ rest := by simp
      rw [if_pos (by simp [lineStarts]; omega), stops, text, shape, String.extract_of_valid,
        String.toList_ofList, dropLineEnds_append_lineFeed]

theorem isSome_line? (file : SourceFile) (number : Nat) :
    (file.line? number).isSome = true ↔ 1 ≤ number ∧ number ≤ file.lineStarts.length := by
  cases number with
  | zero => simp [line?]
  | succ index =>
    rw [line?_succ, Option.isSome_map, isSome_getElem?, length_lineStarts]
    omega

/-- A text without carriage returns is its lines, one after another. -/
theorem join_lines (file : SourceFile) (unreturned : '\r' ∉ file.content.toList) :
    "\n".intercalate ((List.range' 1 file.lineStarts.length).map fun number =>
      (file.line? number).getD "") = file.content := by
  have joined := intercalate_splitLines file.content.toList
  have lines : ((List.range' 1 file.lineStarts.length).map fun number =>
      (file.line? number).getD "").map String.toList = splitLines file.content.toList := by
    apply List.ext_getElem
    · simp [length_lineStarts]
    · intro index _ inside
      have listed := List.getElem_mem inside
      have kept := dropLineEnds_eq_self (lineFeed_not_mem_splitLines listed) fun returned =>
        unreturned (mem_of_mem_splitLines listed returned)
      rw [List.getElem_map, List.getElem_map, List.getElem_range', Nat.one_mul, Nat.add_comm,
        line?_succ, List.getElem?_eq_getElem inside, Option.map_some, Option.getD_some, kept,
        String.toList_ofList]
  apply String.toList_inj.mp
  rw [String.toList_intercalate, lines]
  exact joined

/-- Offsets and positions correspond, the last offset of a file of one line apart.  The line
counts the line feeds before the offset and the column the bytes since the last of them; the order
of offsets is that of positions; a range is resolved to a region that does not end before it
starts.  Exactly the lines from one to their number exist, and without carriage returns they make
up the text. -/
theorem positions_correspond (file : SourceFile) :
    (∀ offset, file.Placed offset → ∃ start, file.StartsLine offset start ∧ file.lineColumn offset =
        (1 + (file.bytes.take offset).count lineFeed, 1 + (offset - start)))
      ∧ (∀ offset < UInt64.size, ¬file.Placed offset → file.lineColumn offset = (1, 0))
      ∧ StrictMonoOn (fun offset => toLex (file.lineColumn offset)) {offset | file.Placed offset}
      ∧ Set.InjOn file.lineColumn {offset | file.Placed offset}
      ∧ (∀ (sources : SourceMap) (id : FileId), sources.file? id = some file → ∀ start stop,
        file.Placed start → file.Placed (max stop start) →
        ∃ region, sources.region? id start stop = some region
          ∧ region.start = file.position start
          ∧ region.start.offset ≤ region.stop.offset
          ∧ toLex (region.start.line, region.start.column)
            ≤ toLex (region.stop.line, region.stop.column))
      ∧ (∀ number, (file.line? number).isSome = true ↔ 1 ≤ number ∧ number ≤ file.lineStarts.length)
      ∧ ('\r' ∉ file.content.toList →
        "\n".intercalate ((List.range' 1 file.lineStarts.length).map fun number =>
          (file.line? number).getD "") = file.content) := by
  refine ⟨?_, ?_, file.lineColumn_strictMonoOn, ?_, ?_, file.isSome_line?, file.join_lines⟩
  · exact fun offset placed =>
      ⟨_, file.lineStart_startsLine offset, file.lineColumn_placed offset placed⟩
  · exact fun offset below unplaced => file.lineColumn_unplaced offset below unplaced
  · exact fun first placed second placedSecond same =>
      file.lineColumn_strictMonoOn.injOn placed placedSecond (congrArg toLex same)
  · exact fun sources id registered start stop placed placedStop =>
      SourceMap.region?_ordered registered placed placedStop

/-- A file with a letter of two bytes, an empty line and a last line that is empty. -/
theorem accented_positions :
    (SourceMap.empty.add "a.go" "é\n\nb\n").file? ⟨0⟩ = some ⟨"a.go", "é\n\nb\n"⟩
      ∧ '\r' ∉ "é\n\nb\n".toList
      ∧ (SourceFile.mk "a.go" "é\n\nb\n").Placed 5
      ∧ (SourceFile.mk "a.go" "é\n\nb\n").Placed (UInt64.size - 1)
      ∧ ((SourceFile.mk "a.go" "é\n\nb\n").lineColumn 5).1 = 3
      ∧ (SourceFile.mk "a.go" "é\n\nb\n").lineStarts.length = 4
      ∧ (∃ region, (SourceMap.empty.add "a.go" "é\n\nb\n").region? ⟨0⟩ 5 1 = some region
        ∧ toLex (region.start.line, region.start.column)
          ≤ toLex (region.stop.line, region.stop.column))
      ∧ "\n".intercalate ((List.range' 1 4).map fun number =>
          ((SourceFile.mk "a.go" "é\n\nb\n").line? number).getD "") = "é\n\nb\n" := by
  obtain ⟨counted, _, _, _, regions, _, joined⟩ := positions_correspond ⟨"a.go", "é\n\nb\n"⟩
  have registered : (SourceMap.empty.add "a.go" "é\n\nb\n").file? ⟨0⟩ =
      some ⟨"a.go", "é\n\nb\n"⟩ := rfl
  have unreturned : '\r' ∉ "é\n\nb\n".toList := by decide
  have placed : (SourceFile.mk "a.go" "é\n\nb\n").Placed 5 := ⟨by decide, fun last => by cases last⟩
  have placedLast : (SourceFile.mk "a.go" "é\n\nb\n").Placed (UInt64.size - 1) :=
    ⟨by decide, fun _ => by decide +kernel⟩
  obtain ⟨start, _, position⟩ := counted 5 placed
  obtain ⟨region, found, _, _, ordered⟩ := regions _ _ registered 5 1 placed placed
  have line : 1 + ((SourceFile.mk "a.go" "é\n\nb\n").bytes.take 5).count lineFeed = 3 := by
    decide +kernel
  exact ⟨registered, unreturned, placed, placedLast, by rw [position, line], by decide,
    ⟨region, found, ordered⟩, joined unreturned⟩

/-- The last offset of all comes before the first one in a file of one line. -/
theorem last_column_wraps :
    (SourceFile.mk "a.go" "x").lineColumn (UInt64.size - 1) = (1, 0)
      ∧ (SourceFile.mk "a.go" "x").lineColumn 0 = (1, 1) := by
  constructor
  · simp [lineColumn, search, narrow, lineStarts, lineStartsFrom, nextWord, UInt64.size]
  · simp [lineColumn, search, narrow, lineStarts, lineStartsFrom, nextWord, UInt64.size]

end SourceFile

end Unclosed
