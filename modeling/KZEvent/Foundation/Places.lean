import Mathlib.Data.List.Perm.Basic

/-!
# Places of a list

What lies at some places of a list can be taken out and something else put there,
while the other elements stay.  As far as the order does not matter, this is said
of the list as a whole.
-/

namespace KZEvent
namespace Foundation

variable {α : Type*} {items : List α}

/-- An element taken out of a list, and another put in its place. -/
theorem perm_set {index : Nat} {c : α}
    (hIndex : items[index]? = some c) :
    items.Perm (c :: items.eraseIdx index) ∧
      ∀ x, (items.set index x).Perm (x :: items.eraseIdx index) := by
  obtain ⟨hBound, rfl⟩ := List.getElem?_eq_some_iff.mp hIndex
  exact ⟨(List.getElem_cons_eraseIdx_perm hBound).symm,
    fun x => List.set_perm_cons_eraseIdx hBound x⟩

/-- Two elements taken out of a list, and others put in their places. -/
theorem perm_set_set {first second : Nat} {a b : α}
    (hNe : first ≠ second) (hFirst : items[first]? = some a)
    (hSecond : items[second]? = some b) :
    ∃ rest, items.Perm (a :: b :: rest) ∧
      ∀ x y, ((items.set first x).set second y).Perm (x :: y :: rest) := by
  induction items generalizing first second with
  | nil => cases hFirst
  | cons c items ih =>
      cases first with
      | zero =>
          cases second with
          | zero => exact absurd rfl hNe
          | succ second =>
              obtain rfl : c = a := by simpa using hFirst
              obtain ⟨hPerm, hSet⟩ := perm_set (by simpa using hSecond)
              exact ⟨_, hPerm.cons c, fun x y => (hSet y).cons x⟩
      | succ first =>
          cases second with
          | zero =>
              obtain rfl : c = b := by simpa using hSecond
              obtain ⟨hPerm, hSet⟩ := perm_set (by simpa using hFirst)
              exact ⟨_, (hPerm.cons c).trans (.swap _ _ _),
                fun x y => ((hSet x).cons y).trans (.swap _ _ _)⟩
          | succ second =>
              obtain ⟨rest, hPerm, hSet⟩ := ih (by simpa using hNe)
                (by simpa using hFirst) (by simpa using hSecond)
              have hFront (x y : α) :
                  (c :: x :: y :: rest).Perm (x :: y :: c :: rest) :=
                (List.Perm.swap _ _ _).trans ((List.Perm.swap _ _ _).cons x)
              exact ⟨c :: rest, (hPerm.cons c).trans (hFront a b),
                fun x y => ((hSet x y).cons c).trans (hFront x y)⟩

end Foundation
end KZEvent
