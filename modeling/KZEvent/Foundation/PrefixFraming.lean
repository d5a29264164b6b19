import Mathlib.Data.List.Basic

/-!
# Cutting a stream into frames

A splitter looks at the items received and not yet consumed and says how long
the first frame is; a verdict of zero or less means that the frame is not
complete.  A splitter may keep a state of its own between calls.  It is
prefix-stable when it keeps none and later items cannot change a verdict once
it is positive.

`Cut onSplit state items frames rest final` says that cutting frames off
`items` as long as the splitter allows it yields `frames` and leaves `rest`.
For a bounded splitter every list has exactly one cut, and for a prefix-stable
one a cut can be resumed: cutting `items`, appending `more` to what is left,
and cutting on gives the cut of `items ++ more`.  So the frames of a stream do
not depend on how it arrived.
-/

namespace KZEvent
namespace Foundation

variable {α σ : Type*}

/-- A verdict never exceeds the items it is about. -/
def BoundedSplit (onSplit : σ → List α → Int × σ) : Prop :=
  ∀ state items, (onSplit state items).1 ≤ items.length

/-- A splitter that is a function of the items alone. -/
def stateless (split : List α → Int) : Unit → List α → Int × Unit :=
  fun _ items => (split items, ())

/-- A positive verdict is final. -/
def PrefixStable (split : List α → Int) : Prop :=
  ∀ items more, 0 < split items → split (items ++ more) = split items

/-- The calls of the splitter while `items` are cut. -/
inductive Asked (onSplit : σ → List α → Int × σ) (state : σ) (items : List α) :
    σ → List α → Prop
  | first : Asked onSplit state items state items
  | next {later : σ} {left : List α}
      (hAsked : Asked onSplit state items later left)
      (hFrame : 0 < (onSplit later left).1) :
      Asked onSplit state items (onSplit later left).2
        (left.drop (onSplit later left).1.toNat)

/-- No verdict on the way exceeds the items it is about. -/
def SplitsFit (onSplit : σ → List α → Int × σ) (state : σ) (items : List α) :
    Prop :=
  ∀ later left, Asked onSplit state items later left →
    (onSplit later left).1 ≤ left.length

theorem BoundedSplit.splitsFit {onSplit : σ → List α → Int × σ}
    (hBounded : BoundedSplit onSplit) (state : σ) (items : List α) :
    SplitsFit onSplit state items :=
  fun later left _ => hBounded later left

theorem SplitsFit.first {onSplit : σ → List α → Int × σ} {state : σ}
    {items : List α} (hFits : SplitsFit onSplit state items) :
    (onSplit state items).1 ≤ items.length :=
  hFits state items .first

/-- Behind the first frame. -/
theorem SplitsFit.next {onSplit : σ → List α → Int × σ} {state : σ}
    {items : List α} (hFits : SplitsFit onSplit state items)
    (hFrame : 0 < (onSplit state items).1) :
    SplitsFit onSplit (onSplit state items).2
      (items.drop (onSplit state items).1.toNat) := by
  intro later left hAsked
  apply hFits
  induction hAsked with
  | first => exact .next .first hFrame
  | next _ hMore ih => exact .next ih hMore

/-- Cut frames off a list as long as the splitter allows it. -/
inductive Cut (onSplit : σ → List α → Int × σ) :
    σ → List α → List (List α) → List α → σ → Prop
  | stop {state : σ} {items : List α} (hStop : (onSplit state items).1 ≤ 0) :
      Cut onSplit state items [] items (onSplit state items).2
  | frame {state final : σ} {items rest : List α} {frames : List (List α)}
      (hFrame : 0 < (onSplit state items).1)
      (hRest : Cut onSplit (onSplit state items).2
        (items.drop (onSplit state items).1.toNat) frames rest final) :
      Cut onSplit state items
        (items.take (onSplit state items).1.toNat :: frames) rest final

namespace Cut

variable {onSplit : σ → List α → Int × σ} {state final : σ}
  {items rest : List α} {frames : List (List α)}

/-- Cutting loses and invents nothing. -/
theorem flatten_append (hCut : Cut onSplit state items frames rest final) :
    frames.flatten ++ rest = items := by
  induction hCut with
  | stop _ => rfl
  | frame _ _ ih =>
      rw [List.flatten_cons, List.append_assoc, ih, List.take_append_drop]

/-- No frame of a bounded splitter is empty, so a cut has at most as many frames as it
takes items. -/
theorem length_frames_le (hBounded : BoundedSplit onSplit)
    (hCut : Cut onSplit state items frames rest final) :
    frames.length + rest.length ≤ items.length := by
  induction hCut with
  | stop _ => exact Nat.le_of_eq (Nat.zero_add _)
  | @frame state _ items _ _ hFrame _ ih =>
      have hLe := hBounded state items
      rw [List.length_drop] at ih
      rw [List.length_cons]
      omega

/-- A list has at most one cut. -/
theorem unique {otherFinal : σ} {otherRest : List α}
    {otherFrames : List (List α)}
    (hCut : Cut onSplit state items frames rest final)
    (hOther : Cut onSplit state items otherFrames otherRest otherFinal) :
    frames = otherFrames ∧ rest = otherRest := by
  -- The verdict decides the constructor, so the two derivations go in step.
  induction hCut generalizing otherFrames otherRest otherFinal with
  | stop hStop =>
      cases hOther with
      | stop _ => exact ⟨rfl, rfl⟩
      | frame hFrame _ => omega
  | frame hFrame _ ih =>
      cases hOther with
      | stop hStop => omega
      | frame _ hOtherRest =>
          obtain ⟨hFrames, hRest⟩ := ih hOtherRest
          exact ⟨by rw [hFrames], hRest⟩

/-- A bounded splitter has a cut of every list. -/
theorem exists_cut (hBounded : BoundedSplit onSplit) (state : σ)
    (items : List α) :
    ∃ frames rest final, Cut onSplit state items frames rest final := by
  -- By induction on the length: a frame is never empty.
  induction hLength : items.length using Nat.strongRecOn
    generalizing state items with
  | _ length ih =>
      by_cases hFrame : 0 < (onSplit state items).1
      · have hLe := hBounded state items
        have hShorter :
            (items.drop (onSplit state items).1.toNat).length < length := by
          rw [List.length_drop]
          omega
        obtain ⟨frames, rest, final, hCut⟩ :=
          ih _ hShorter (onSplit state items).2 _ rfl
        exact ⟨_, rest, final, frame hFrame hCut⟩
      · exact ⟨[], items, _, stop (by omega)⟩

/-- A frame with a known verdict, cut off by a splitter without a state. -/
theorem frame_of_eq {split : List α → Int} {more : List α}
    (hSplit : split (items ++ more) = items.length) (hLength : 0 < items.length)
    (hRest : Cut (stateless split) () more frames rest ()) :
    Cut (stateless split) () (items ++ more) (items :: frames) rest () := by
  have hFrame : 0 < (stateless split () (items ++ more)).1 := by
    show 0 < split (items ++ more)
    omega
  have hVerdict : (stateless split () (items ++ more)).1.toNat = items.length := by
    show (split (items ++ more)).toNat = _
    omega
  have hLater : Cut (stateless split) ()
      ((items ++ more).drop (stateless split () (items ++ more)).1.toNat) frames
      rest () := by
    rw [hVerdict, List.drop_left]
    exact hRest
  have hCut := frame hFrame hLater
  rwa [hVerdict, List.take_left] at hCut

/-- A cut by a prefix-stable splitter can be resumed when more items arrive. -/
theorem resume {split : List α → Int} {u u' u'' : Unit}
    (hBounded : BoundedSplit (stateless split)) (hStable : PrefixStable split)
    (hCut : Cut (stateless split) u items frames rest u')
    {more last : List α} {later : List (List α)}
    (hLater : Cut (stateless split) u' (rest ++ more) later last u'') :
    Cut (stateless split) u (items ++ more) (frames ++ later) last u'' := by
  induction hCut with
  | stop _ => exact hLater
  | @frame u u' items rest frames hFrame _ ih =>
      -- The verdict on the first frame is final, so the longer list begins with
      -- the same frame; the hypothesis resumes the cut behind it.
      have hSame : split (items ++ more) = split items :=
        hStable items more hFrame
      have hLe : (split items).toNat ≤ items.length := by
        have hBound : split items ≤ items.length := hBounded () items
        omega
      have hResumed : Cut (stateless split) ()
          ((items ++ more).drop (split (items ++ more)).toNat)
          (frames ++ later) last u'' := by
        rw [hSame, List.drop_append_of_le_length hLe]
        exact ih hLater
      have hPositive : 0 < (stateless split u (items ++ more)).1 := by
        change 0 < split (items ++ more)
        rw [hSame]
        exact hFrame
      have hWhole := frame hPositive hResumed
      change Cut (stateless split) u (items ++ more)
        ((items ++ more).take (split (items ++ more)).toNat :: (frames ++ later))
        last u'' at hWhole
      rw [hSame, List.take_append_of_le_length hLe] at hWhole
      exact hWhole

/-- Of a longer list the cut begins with the same frames. -/
theorem frames_prefix {split : List α → Int} {u u' : Unit}
    {items' rest' : List α} {frames' : List (List α)}
    (hBounded : BoundedSplit (stateless split)) (hStable : PrefixStable split)
    (hCut : Cut (stateless split) u items frames rest u')
    (hLonger : Cut (stateless split) () items' frames' rest' ())
    (hPrefix : items <+: items') : frames <+: frames' := by
  obtain ⟨more, rfl⟩ := hPrefix
  obtain ⟨later, last, u'', hLater⟩ := exists_cut hBounded u' (rest ++ more)
  have hResumed := resume hBounded hStable hCut hLater
  obtain ⟨rfl, -⟩ := hLonger.unique hResumed
  exact List.prefix_append frames later

end Cut

end Foundation
end KZEvent
