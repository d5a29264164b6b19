import Mathlib.Data.List.Basic

/-!
# Windows of an array

A ring-free queue keeps its contents in a window `[first, last)` of a backing
array.  Arrays are lists here.  The operations are the three a C++ vector
offers to such a queue: overwrite a range in place, grow or cut the array, and
look at a window.
-/

namespace KZEvent
namespace Foundation

variable {α : Type*}

/-- The elements at positions `first, ..., last - 1`. -/
def window (array : List α) (first last : Nat) : List α :=
  (array.drop first).take (last - first)

/-- Write `items` over the positions `position, position + 1, ...`. -/
def overwrite (array : List α) (position : Nat) (items : List α) : List α :=
  array.take position ++ items ++ array.drop (position + items.length)

/-- Cut the array to `size` elements, or grow it with copies of `fill`. -/
def resize (fill : α) (array : List α) (size : Nat) : List α :=
  array.take size ++ List.replicate (size - array.length) fill

@[simp]
theorem length_window (array : List α) (first last : Nat) :
    (window array first last).length = min (last - first) (array.length - first) := by
  simp [window]

@[simp]
theorem window_self (array : List α) (position : Nat) :
    window array position position = [] := by
  simp [window]

@[simp]
theorem length_resize (fill : α) (array : List α) (size : Nat) :
    (resize fill array size).length = size := by
  simp only [resize, List.length_append, List.length_take, List.length_replicate]
  omega

theorem length_overwrite {array items : List α} {position : Nat}
    (hFits : position + items.length ≤ array.length) :
    (overwrite array position items).length = array.length := by
  simp only [overwrite, List.length_append, List.length_take, List.length_drop]
  omega

/-- Growing an array with copies of the value that is read outside it changes
nothing that is read. -/
theorem getD_resize {fill : α} {array : List α} {size : Nat}
    (hSize : array.length ≤ size) (position : Nat) :
    (resize fill array size).getD position fill = array.getD position fill := by
  simp only [resize, List.getD_eq_getElem?_getD]
  rw [List.take_of_length_le hSize]
  by_cases hPosition : position < array.length
  · rw [List.getElem?_append_left hPosition]
  · rw [List.getElem?_append_right (by omega), List.getElem?_replicate,
      List.getElem?_eq_none (l := array) (by omega)]
    split <;> rfl

/-- Dropping from the front of a window moves its first end. -/
theorem drop_window (array : List α) (first last count : Nat) :
    (window array first last).drop count = window array (first + count) last := by
  simp only [window, List.drop_take, List.drop_drop]
  congr 1
  omega

/-- Growing an array does not change a window inside it. -/
theorem window_resize {fill : α} {array : List α} {first last size : Nat}
    (hLast : last ≤ array.length) (hSize : last ≤ size) :
    window (resize fill array size) first last = window array first last := by
  -- Position by position; behind the window both sides have nothing.
  apply List.ext_getElem?
  intro index
  simp only [window, resize]
  by_cases hIndex : index < last - first
  · rw [List.getElem?_take_of_lt hIndex, List.getElem?_take_of_lt hIndex,
      List.getElem?_drop, List.getElem?_drop, List.getElem?_append_left,
      List.getElem?_take_of_lt (by omega)]
    simp only [List.length_take]
    omega
  · simp only [List.getElem?_take, hIndex, if_false]

/-- Overwriting at the end of a window and moving that end past the new items
appends them to the window. -/
theorem window_overwrite_end {array items : List α} {first last : Nat}
    (hFirst : first ≤ last) (hLast : last ≤ array.length) :
    window (overwrite array last items) first (last + items.length) =
      window array first last ++ items := by
  have hTake : (array.take last).length = last := by
    simp [hLast]
  have hKept : (array.take last).drop first = window array first last := by
    simp [window, List.drop_take]
  have hDrop : (overwrite array last items).drop first =
      window array first last ++ items ++ array.drop (last + items.length) := by
    rw [overwrite, List.append_assoc, List.drop_append_of_le_length (by omega),
      hKept, List.append_assoc]
  have hLength : (window array first last ++ items).length =
      last + items.length - first := by
    simp only [List.length_append, length_window]
    omega
  rw [window, hDrop, ← hLength, List.take_left]

/-- Writing a window's items to the front of the array makes them the window
that starts at zero. -/
theorem window_overwrite_front (array items : List α) :
    window (overwrite array 0 items) 0 items.length = items := by
  simp [window, overwrite]

/-- The front of a concatenation is its first part. -/
theorem window_append_front (front back : List α) :
    window (front ++ back) 0 front.length = front := by
  simp [window]

/-- Behind its first part, a concatenation is its second part. -/
theorem window_append_back (front back : List α) (first last : Nat) :
    window (front ++ back) (front.length + first) (front.length + last) =
      window back first last := by
  simp only [window, List.drop_append, Nat.add_sub_cancel_left]
  rw [List.drop_eq_nil_of_le (Nat.le_add_right _ _), List.nil_append]
  congr 1
  omega

/-- A window inside a prefix is a window of the whole. -/
theorem window_take (array : List α) {first last count : Nat}
    (hLast : last ≤ count) :
    window (array.take count) first last = window array first last := by
  simp only [window, List.drop_take, List.take_take]
  congr 1
  omega

/-- Cutting a grown array behind what it was grown from and growing it again
changes nothing. -/
theorem resize_take_resize (fill : α) {array : List α} {count size : Nat}
    (hCount : array.length ≤ count) (hSize : count ≤ size) :
    resize fill ((resize fill array size).take count) size =
      resize fill array size := by
  have hGrown : resize fill array size =
      array ++ List.replicate (size - array.length) fill := by
    rw [resize, List.take_of_length_le (by omega)]
  have hCut : (resize fill array size).take count =
      array ++ List.replicate (count - array.length) fill := by
    rw [hGrown, List.take_append, List.take_of_length_le hCount,
      List.take_replicate]
    congr 2
    omega
  have hLength : ((resize fill array size).take count).length = count := by
    rw [List.length_take, length_resize]
    omega
  rw [resize, hLength, List.take_of_length_le (by omega), hCut, hGrown,
    List.append_assoc, List.replicate_append_replicate]
  congr 2
  omega

end Foundation
end KZEvent
