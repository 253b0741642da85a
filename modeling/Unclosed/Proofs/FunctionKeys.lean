import Unclosed.Facts.Key

/-!
Keys identify functions.  A key ends with a dot and the function's own name, and
what stands before that dot is the package of a function or the receiver of a
method in parentheses.  Names hold no dots, so a key is read from its end, however
many dots and slashes the path of the package has.
-/

namespace Unclosed

@[ext]
structure PackagePath where
  text : String
  plain : ∀ first ∈ text.toList.head?, first ≠ '(' ∧ first ≠ '*'

@[ext]
structure PlainName where
  text : String
  plain : ∀ character ∈ text.toList, character ∉ ['.', '(', ')', '*']

theorem PlainName.dotless (name : PlainName) : '.' ∉ name.text.toList :=
  fun dotted => name.plain '.' dotted (by decide)

theorem PackagePath.text_ne_cons (package : PackagePath) {first : Char} (rest : List Char)
    (reserved : first = '(' ∨ first = '*') : package.text.toList ≠ first :: rest := by
  intro starts
  have plain := package.plain first (by rw [starts]; rfl)
  exact reserved.elim plain.1 plain.2

inductive Callable where
  | function (package : PackagePath) (name : PlainName)
  | method (package : PackagePath) (receiver : PlainName) (pointer : Bool) (name : PlainName)

namespace Callable

def key : Callable → FuncKey
  | function package name => .function package.text name.text
  | method package receiver pointer name => .method package.text receiver.text pointer name.text

def ownName : Callable → PlainName
  | function _ name | method _ _ _ name => name

def receiverText (package : PackagePath) (receiver : PlainName) (pointer : Bool) : List Char :=
  ((if pointer then ['*'] else []) ++ package.text.toList) ++ '.' :: receiver.text.toList

def owner : Callable → List Char
  | function package _ => package.text.toList
  | method package receiver pointer _ => '(' :: (receiverText package receiver pointer ++ [')'])

theorem key_text (callable : Callable) :
    callable.key.text.toList = callable.owner ++ '.' :: callable.ownName.text.toList := by
  cases callable with
  | function package name => simp [key, owner, ownName, FuncKey.function]
  | method package receiver pointer name =>
    cases pointer <;> simp [key, owner, ownName, receiverText, FuncKey.method]

/-! ### The last dot -/

theorem afterLastDot_append (before : List Char) {name : List Char} (dotless : '.' ∉ name) :
    FuncKey.afterLastDot (before ++ '.' :: name) = name := by
  have taken : ∀ character ∈ name.reverse, (character != '.') = true := by
    intro character member
    rw [bne_iff_ne]
    rintro rfl
    exact dotless (List.mem_reverse.mp member)
  rw [FuncKey.afterLastDot, List.reverse_append, List.reverse_cons, List.append_assoc,
    List.takeWhile_append_of_pos taken]
  simp

/-- A text is parted at its last dot in one way. -/
theorem parted_at_last_dot {first second name other : List Char} (dotless : '.' ∉ name)
    (dotless' : '.' ∉ other) (same : first ++ '.' :: name = second ++ '.' :: other) :
    first = second ∧ name = other := by
  have names : name = other := by
    rw [← afterLastDot_append first dotless, same, afterLastDot_append second dotless']
  rw [names] at same
  exact ⟨List.append_cancel_right same, names⟩

theorem receiverText_inj {package package' : PackagePath} {receiver receiver' : PlainName}
    {pointer pointer' : Bool}
    (same : receiverText package receiver pointer = receiverText package' receiver' pointer') :
    package = package' ∧ receiver = receiver' ∧ pointer = pointer' := by
  obtain ⟨starred, receivers⟩ := parted_at_last_dot receiver.dotless receiver'.dotless same
  -- A path does not start with the star of a pointer, so the stars agree.
  refine and_left_comm.mp ⟨PlainName.ext (String.toList_inj.mp receivers), ?_⟩
  cases pointer <;> cases pointer'
  · exact ⟨PackagePath.ext (String.toList_inj.mp starred), rfl⟩
  · exact absurd starred (package.text_ne_cons _ (.inr rfl))
  · exact absurd starred.symm (package'.text_ne_cons _ (.inr rfl))
  · exact ⟨PackagePath.ext (String.toList_inj.mp (List.cons.inj starred).2), rfl⟩

/-! ### Keys -/

/-- Different functions and methods have different keys, and a key tells the own
name. -/
theorem key_identifies :
    Function.Injective key ∧ ∀ callable : Callable, callable.key.name = callable.ownName.text := by
  constructor
  · intro first second same
    have texts : first.key.text.toList = second.key.text.toList := by rw [same]
    rw [key_text, key_text] at texts
    obtain ⟨owners, sameNames⟩ :=
      parted_at_last_dot first.ownName.dotless second.ownName.dotless texts
    have names : first.ownName = second.ownName := PlainName.ext (String.toList_inj.mp sameNames)
    cases first with
    | function package name =>
      cases second with
      | function package' name' =>
        obtain rfl : name = name' := names
        rw [PackagePath.ext (String.toList_inj.mp owners)]
      | method package' receiver' pointer' name' =>
        exact absurd owners (package.text_ne_cons _ (.inl rfl))
    | method package receiver pointer name =>
      cases second with
      | function package' name' => exact absurd owners.symm (package'.text_ne_cons _ (.inl rfl))
      | method package' receiver' pointer' name' =>
        have receivers := List.append_cancel_right (List.cons.inj owners).2
        obtain ⟨rfl, rfl, rfl⟩ := receiverText_inj receivers
        obtain rfl : name = name' := names
        rfl
  · intro callable
    rw [FuncKey.name, key_text, afterLastDot_append _ callable.ownName.dotless, String.ofList_toList]

example : (method ⟨"net/http", by simp⟩ ⟨"Client", by simp⟩ true ⟨"Do", by simp⟩).key.text =
    "(*net/http.Client).Do" := rfl

end Callable
end Unclosed
