import Abacus.Fault
import Abacus.Source.Basic

namespace Abacus

-- A stretch of a source: what a parser is given to read. Cutting a view short is how a parser is
-- asked to match exactly the beginning of a text.
structure View where
  source : Source
  pos : Nat
  stop : Nat
  ordered : pos ≤ stop
  inside : stop ≤ source.size
deriving DecidableEq

namespace View

def whole (source : Source) : View := ⟨source, 0, source.size, Nat.zero_le _, Nat.le_refl _⟩

def ofText (text : String) (name : String) : View := whole (.of name text)

-- Bounds outside the source are moved to its edges.
def between (source : Source) (first last : Nat) : View where
  source := source
  pos := min first (min last source.size)
  stop := min last source.size
  ordered := Nat.min_le_right _ _
  inside := Nat.min_le_right _ _

def size (view : View) : Nat := view.stop - view.pos

def isEmpty (view : View) : Bool := view.stop ≤ view.pos

def chars (view : View) : List Char := (view.source.text.extract view.pos view.stop).toList

def text (view : View) : String := String.ofList view.chars

def shown (view : View) : String :=
  "Cursor(" ++ toString view.pos ++ ", " ++ toString view.stop ++ ", " ++ Text.quoted view.text
    ++ ")"

-- All but the first characters.
def drop (view : View) (count : Nat) : View where
  source := view.source
  pos := min (view.pos + count) view.stop
  stop := view.stop
  ordered := Nat.min_le_right _ _
  inside := view.inside

-- The first characters.
def take (view : View) (count : Nat) : View where
  source := view.source
  pos := view.pos
  stop := min (view.pos + count) view.stop
  ordered := by have := view.ordered; omega
  inside := by have := view.inside; omega

-- The first character and the view behind it.
def next? (view : View) : Option (Char × View) :=
  if h : view.pos < view.stop then
    have : view.pos < view.source.text.size := Nat.lt_of_lt_of_le h view.inside
    some (view.source.text[view.pos], view.drop 1)
  else none

def head? (view : View) : Option Char := view.next?.map Prod.fst

-- The ways to cut a view into two parts that are not empty, the shortest first part first.
def splits (view : View) : List (View × View) :=
  (List.range' 1 (view.size - 1)).map fun count => (view.take count, view.drop count)

-- Moves the beginning forward, if the view is long enough.
def advance (view : View) (count : Int) : Except Fault View :=
  if 0 ≤ count ∧ count ≤ view.size then .ok (view.drop count.toNat)
  else .error (.outsideView count view.shown)

-- Moves the end to an offset of the view.
def stopAt (view : View) (stop : Int) : Except Fault View :=
  if view.pos ≤ stop ∧ stop ≤ view.stop then .ok (view.take (stop - view.pos).toNat)
  else .error (.outsideView stop view.shown)

def same (a b : View) : Bool := a.source.same b.source && a.pos == b.pos && a.stop == b.stop

@[simp]
theorem source_drop (view : View) (count : Nat) : (view.drop count).source = view.source := rfl

@[simp]
theorem source_take (view : View) (count : Nat) : (view.take count).source = view.source := rfl

@[simp]
theorem stop_drop (view : View) (count : Nat) : (view.drop count).stop = view.stop := rfl

@[simp]
theorem pos_take (view : View) (count : Nat) : (view.take count).pos = view.pos := rfl

@[simp]
theorem drop_zero (view : View) : view.drop 0 = view := by
  have := view.ordered
  simp only [drop, Nat.add_zero, Nat.min_eq_left this]

theorem drop_drop (view : View) (count count' : Nat) :
    (view.drop count).drop count' = view.drop (count + count') := by
  simp only [drop, View.mk.injEq, true_and, and_true]
  omega

theorem chars_eq (view : View) :
    view.chars = (view.source.chars.drop view.pos).take view.size := by
  simp [chars, Source.chars, size, List.extract_eq_take_drop]

@[simp]
theorem length_chars (view : View) : view.chars.length = view.size := by
  have := view.inside
  simp [chars, size, Source.size] at *
  omega

@[simp]
theorem chars_whole (source : Source) : (whole source).chars = source.chars := by
  rw [chars_eq]
  exact List.take_of_length_le (Nat.le_refl _)

theorem isEmpty_iff (view : View) : view.isEmpty = true ↔ view.size = 0 := by
  simp only [isEmpty, size, decide_eq_true_iff]
  omega

theorem size_drop (view : View) (count : Nat) : (view.drop count).size = view.size - count := by
  simp only [size, drop]
  omega

theorem pos_drop {view : View} {count : Nat} (h : count ≤ view.size) :
    (view.drop count).pos = view.pos + count := by
  have := view.ordered
  simp only [size] at h
  simp only [drop]
  omega

theorem size_drop_lt {view : View} {count : Nat} (h : view.chars.take count ≠ []) :
    (view.drop count).size < view.size := by
  have hlength : 0 < (view.chars.take count).length := List.length_pos_iff.mpr h
  rw [List.length_take, length_chars] at hlength
  rw [size_drop]
  omega

theorem size_take (view : View) (count : Nat) : (view.take count).size = min count view.size := by
  simp only [size, take]
  omega

theorem chars_take (view : View) (count : Nat) :
    (view.take count).chars = view.chars.take count := by
  rw [chars_eq, chars_eq, size_take, List.take_take]
  rfl

theorem chars_drop (view : View) (count : Nat) :
    (view.drop count).chars = view.chars.drop count := by
  have := view.ordered
  rw [chars_eq, chars_eq, size_drop, List.drop_take, List.drop_drop]
  simp only [drop]
  rcases Nat.le_total (view.pos + count) view.stop with h | h
  · rw [Nat.min_eq_left h]
  · simp [size, Nat.sub_eq_zero_of_le (show view.stop - view.pos ≤ count by omega)]

-- What is left behind a text that the view begins with.
theorem chars_drop_length {view : View} {front back : List Char}
    (h : view.chars = front ++ back) : (view.drop front.length).chars = back := by
  rw [chars_drop, h, List.drop_left]

theorem chars_drop_lengths {view : View} {front middle back : List Char}
    (h : view.chars = front ++ (middle ++ back)) :
    (view.drop (front.length + middle.length)).chars = back := by
  rw [← drop_drop]
  exact chars_drop_length (chars_drop_length h)

theorem chars_drop_one {view : View} {c : Char} {back : List Char} (h : view.chars = c :: back) :
    (view.drop 1).chars = back := by
  rw [chars_drop, h, List.drop_one, List.tail_cons]

-- Reading one character takes the first of the list.
theorem next?_eq (view : View) :
    view.next? = view.chars.head?.map fun c => (c, view.drop 1) := by
  have hin := view.inside
  rw [chars_eq, next?]
  split
  · rename_i h
    have hsize : view.size = (view.size - 1) + 1 := by simp only [size]; omega
    have hlt : view.pos < view.source.chars.length := by simp [Source.size] at *; omega
    rw [List.drop_eq_getElem_cons hlt, hsize, List.take_succ_cons]
    simp [Source.chars]
  · rename_i h
    have hsize : view.size = 0 := by simp only [size]; omega
    simp [hsize]

end View

end Abacus
