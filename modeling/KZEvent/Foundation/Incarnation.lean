import KZEvent.Foundation.HashTable
import Mathlib.Data.List.Induction

/-!
# Sessions and their incarnations

Items arrive, each under a key.  The first item under a key opens a session, and
later items under an equal key belong to that session until it is closed; the
next item then opens another one.  A session is known by the number of items
that had arrived when it was opened.

The registry is what this comes to after a history.  `live_iff_holds` says what
a live session is in terms of the history alone.
-/

namespace KZEvent
namespace Foundation

variable {Key Item : Type*}

inductive SessionEvent (Key Item : Type*)
  | arrival (key : Key) (item : Item)
  | close (gone : List Nat)

/-- What is done with an item: it opens a session, or belongs to one. -/
inductive Delivery (Item : Type*)
  | first (session : Nat) (item : Item)
  | later (session : Nat) (item : Item)
deriving DecidableEq

/-- The live session of each key, and the number of arrivals. -/
structure Registry (Key : Type*) where
  live : Key → Option Nat
  arrivals : Nat

namespace Registry

def empty : Registry Key where
  live _ := none
  arrivals := 0

/-- The session an item under `key` belongs to. -/
def sessionOf (r : Registry Key) (key : Key) : Nat :=
  (r.live key).getD r.arrivals

def apply (eq : Key → Key → Bool) (r : Registry Key) :
    SessionEvent Key Item → Registry Key
  | .arrival key _ =>
      { live := fun other =>
          if eq key other then some (r.sessionOf key) else r.live other
        arrivals := r.arrivals + 1 }
  | .close gone =>
      { r with live := fun other => (r.live other).filter (· ∉ gone) }

/-- The registry after a history. -/
def after (eq : Key → Key → Bool) (events : List (SessionEvent Key Item)) :
    Registry Key :=
  events.foldl (apply eq) empty

/-- What is done with an item under `key`. -/
def deliver (r : Registry Key) (key : Key) (item : Item) : Delivery Item :=
  match r.live key with
  | none => .first r.arrivals item
  | some session => .later session item

@[simp]
theorem after_concat (eq : Key → Key → Bool)
    (events : List (SessionEvent Key Item)) (event : SessionEvent Key Item) :
    after eq (events ++ [event]) = (after eq events).apply eq event :=
  List.foldl_concat ..

end Registry

/-- The deliveries an event adds to those of the history before it. -/
def SessionEvent.delivery (r : Registry Key) :
    SessionEvent Key Item → List (Delivery Item)
  | arrival key item => [r.deliver key item]
  | close _ => []

/-- The deliveries of a history from `r` on. -/
def deliveriesFrom (eq : Key → Key → Bool) :
    Registry Key → List (SessionEvent Key Item) → List (Delivery Item)
  | _, [] => []
  | r, event :: events =>
      event.delivery r ++ deliveriesFrom eq (r.apply eq event) events

def deliveries (eq : Key → Key → Bool) (events : List (SessionEvent Key Item)) :
    List (Delivery Item) :=
  deliveriesFrom eq .empty events

theorem deliveriesFrom_append (eq : Key → Key → Bool) (r : Registry Key)
    (events later : List (SessionEvent Key Item)) :
    deliveriesFrom eq r (events ++ later) = deliveriesFrom eq r events ++
      deliveriesFrom eq (events.foldl (Registry.apply eq) r) later := by
  induction events generalizing r with
  | nil => rfl
  | cons event events ih =>
      simp only [List.cons_append, deliveriesFrom, List.foldl_cons, ih,
        List.append_assoc]

theorem deliveries_concat (eq : Key → Key → Bool)
    (events : List (SessionEvent Key Item)) (event : SessionEvent Key Item) :
    deliveries eq (events ++ [event]) =
      deliveries eq events ++ event.delivery (.after eq events) := by
  rw [deliveries, deliveriesFrom_append]
  simp only [deliveriesFrom, List.append_nil]
  rfl

/-- Every item is delivered once, at its place in the order of arrival. -/
theorem deliveries_split (eq : Key → Key → Bool)
    (earlier later : List (SessionEvent Key Item)) (key : Key) (item : Item) :
    deliveries eq (earlier ++ .arrival key item :: later) =
      deliveries eq earlier ++ (Registry.after eq earlier).deliver key item ::
        deliveriesFrom eq (.after eq (earlier ++ [.arrival key item])) later := by
  rw [Registry.after_concat, deliveries, deliveriesFrom_append]
  rfl

/-- As many items were delivered as arrived. -/
theorem length_deliveries (eq : Key → Key → Bool)
    (events : List (SessionEvent Key Item)) :
    (deliveries eq events).length = (Registry.after eq events).arrivals := by
  induction events using List.reverseRecOn with
  | nil => rfl
  | append_singleton events event ih =>
      rw [deliveries_concat, List.length_append, ih, Registry.after_concat]
      cases event <;> rfl

/-! ## Live sessions in terms of the history -/

/-- The session was opened under an equal key, and not closed since. -/
def Holds (eq : Key → Key → Bool) (events : List (SessionEvent Key Item))
    (key : Key) (session : Nat) : Prop :=
  ∃ earlier first item later,
    events = earlier ++ .arrival first item :: later ∧ eq first key = true ∧
      (Registry.after eq earlier).deliver first item = .first session item ∧
      ∀ gone, SessionEvent.close gone ∈ later → session ∉ gone

theorem deliver_eq_first_iff {r : Registry Key} {key : Key} {item : Item}
    {session : Nat} :
    r.deliver key item = .first session item ↔
      r.live key = none ∧ r.arrivals = session := by
  unfold Registry.deliver
  cases r.live key <;> simp

/-- The event changes nothing about a session that it does not close. -/
theorem Holds.concat {eq : Key → Key → Bool}
    {events : List (SessionEvent Key Item)} {key : Key} {session : Nat}
    (hHolds : Holds eq events key session) {event : SessionEvent Key Item}
    (hKept : ∀ gone, event = .close gone → session ∉ gone) :
    Holds eq (events ++ [event]) key session := by
  obtain ⟨earlier, first, item, later, rfl, hEq, hFirst, hOpen⟩ := hHolds
  refine ⟨earlier, first, item, later ++ [event], by simp, hEq, hFirst, ?_⟩
  intro gone hMem
  rcases List.mem_append.mp hMem with hLater | hLast
  · exact hOpen gone hLater
  · exact hKept gone (List.mem_singleton.mp hLast).symm

/-- What is live was opened and not closed. -/
theorem holds_of_live {eq : Key → Key → Bool} (hEquiv : KeyEquiv eq)
    (events : List (SessionEvent Key Item)) {key : Key} {session : Nat}
    (hLive : (Registry.after eq events).live key = some session) :
    Holds eq events key session := by
  induction events using List.reverseRecOn generalizing key with
  | nil => cases hLive
  | append_singleton events event ih =>
      rw [Registry.after_concat] at hLive
      cases event with
      | arrival other item =>
          simp only [Registry.apply] at hLive
          split at hLive
          · rename_i hEq
            cases hOther : (Registry.after eq events).live other with
            | none =>
                -- The item has opened the session.
                rw [Registry.sessionOf, hOther] at hLive
                obtain rfl := Option.some.inj hLive
                exact ⟨events, other, item, [], rfl, hEq,
                  deliver_eq_first_iff.mpr ⟨hOther, rfl⟩, by simp⟩
            | some found =>
                rw [Registry.sessionOf, hOther] at hLive
                obtain rfl := Option.some.inj hLive
                obtain ⟨earlier, first, opener, later, hSplit, hFirst, hRest⟩ :=
                  ih hOther
                have hHolds : Holds eq events key found :=
                  ⟨earlier, first, opener, later, hSplit,
                    hEquiv.trans _ _ _ hFirst hEq, hRest⟩
                exact hHolds.concat (by simp)
          · exact (ih hLive).concat (by simp)
      | close gone =>
          obtain ⟨hBefore, hKept⟩ := Option.filter_eq_some_iff.mp hLive
          refine (ih hBefore).concat ?_
          rintro _ ⟨⟩
          simpa using hKept

/-- What was opened and not closed is live, under every equal key. -/
theorem live_of_holds {eq : Key → Key → Bool} (hEquiv : KeyEquiv eq)
    (events : List (SessionEvent Key Item)) {key : Key} {session : Nat}
    (hHolds : Holds eq events key session) :
    (Registry.after eq events).live key = some session := by
  obtain ⟨earlier, first, item, later, rfl, hEq, hFirst, hOpen⟩ := hHolds
  obtain ⟨hNone, rfl⟩ := deliver_eq_first_iff.mp hFirst
  -- Induct on what came after the session was opened.
  induction later using List.reverseRecOn generalizing key with
  | nil =>
      rw [Registry.after_concat]
      simp only [Registry.apply, hEq, if_true, Registry.sessionOf, hNone,
        Option.getD_none]
  | append_singleton later event ih =>
      have hBefore : ∀ gone, SessionEvent.close gone ∈ later →
          (Registry.after eq earlier).arrivals ∉ gone :=
        fun gone hMem => hOpen gone (List.mem_append_left _ hMem)
      have hSplit : earlier ++ .arrival first item :: (later ++ [event]) =
          (earlier ++ .arrival first item :: later) ++ [event] := by simp
      rw [hSplit, Registry.after_concat]
      cases event with
      | arrival other _ =>
          simp only [Registry.apply]
          split
          · rename_i hOther
            have hFirstOther : eq first other = true :=
              hEquiv.trans _ _ _ hEq (hEquiv.symm _ _ hOther)
            rw [Registry.sessionOf, ih hFirstOther hBefore, Option.getD_some]
          · exact ih hEq hBefore
      | close gone =>
          have hKept := hOpen gone (by simp)
          simp only [Registry.apply, ih hEq hBefore]
          simp [hKept]

/-- **Live sessions.**  A session is live for a key exactly if it was opened by
an item under an equal key and has not been closed since. -/
theorem live_iff_holds {eq : Key → Key → Bool} (hEquiv : KeyEquiv eq)
    (events : List (SessionEvent Key Item)) (key : Key) (session : Nat) :
    (Registry.after eq events).live key = some session ↔
      Holds eq events key session :=
  ⟨holds_of_live hEquiv events, live_of_holds hEquiv events⟩

/-- **What becomes of an item.**  The item after `earlier` is delivered as the
next one after those of `earlier`: it opens a session, numbered by the items
before it, if none is live under an equal key; otherwise it belongs to the one
that is. -/
theorem delivery_of_arrival {eq : Key → Key → Bool} (hEquiv : KeyEquiv eq)
    (earlier later : List (SessionEvent Key Item)) (key : Key) (item : Item) :
    ∃ before delivery rest,
      deliveries eq (earlier ++ .arrival key item :: later) =
        before ++ delivery :: rest ∧
      before = deliveries eq earlier ∧
      ((delivery = .first before.length item ∧
          ∀ session, ¬ Holds eq earlier key session) ∨
        ∃ session, delivery = .later session item ∧
          Holds eq earlier key session) := by
  refine ⟨_, _, _, deliveries_split eq earlier later key item, rfl, ?_⟩
  rw [length_deliveries]
  cases hLive : (Registry.after eq earlier).live key with
  | none =>
      refine .inl ⟨by rw [Registry.deliver, hLive], fun session hHolds => ?_⟩
      rw [live_of_holds hEquiv earlier hHolds] at hLive
      cases hLive
  | some session =>
      exact .inr ⟨session, by rw [Registry.deliver, hLive],
        holds_of_live hEquiv earlier hLive⟩

end Foundation
end KZEvent
