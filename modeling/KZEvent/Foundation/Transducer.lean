import Mathlib.Data.List.Basic

/-!
# Answering a stream of requests

A reaction takes a state and a request to the next state and to any number of
answers.  Over a stream of requests the answers come one after the other, and the
answers to the first part of a stream are the first part of the answers: nothing that
comes later changes them.
-/

namespace KZEvent
namespace Foundation

variable {σ α β : Type*}

/-- The state after a stream of requests. -/
def stateAfter (react : σ → α → σ × List β) : σ → List α → σ
  | state, [] => state
  | state, request :: requests =>
      stateAfter react (react state request).1 requests

/-- The answers to a stream of requests. -/
def answers (react : σ → α → σ × List β) : σ → List α → List β
  | _, [] => []
  | state, request :: requests =>
      (react state request).2 ++ answers react (react state request).1 requests

variable {react : σ → α → σ × List β}

@[simp]
theorem stateAfter_append (state : σ) (requests later : List α) :
    stateAfter react state (requests ++ later) =
      stateAfter react (stateAfter react state requests) later := by
  induction requests generalizing state with
  | nil => rfl
  | cons request requests ih => exact ih (react state request).1

@[simp]
theorem answers_append (state : σ) (requests later : List α) :
    answers react state (requests ++ later) =
      answers react state requests ++
        answers react (stateAfter react state requests) later := by
  induction requests generalizing state with
  | nil => rfl
  | cons request requests ih =>
      show (react state request).2 ++ answers react _ (requests ++ later) = _
      rw [ih, ← List.append_assoc]
      rfl

/-- The answers to the first requests are the first answers. -/
theorem answers_prefix (state : σ) {requests longer : List α}
    (hPrefix : requests <+: longer) :
    answers react state requests <+: answers react state longer := by
  obtain ⟨later, rfl⟩ := hPrefix
  rw [answers_append]
  exact List.prefix_append _ _

/-- What is true of all answers in every state that requests lead to. -/
theorem forall_mem_answers {Fits : σ → Prop} {Good : β → Prop} {Asked : α → Prop}
    (hReact : ∀ state request, Fits state → Asked request →
      Fits (react state request).1 ∧ ∀ answer ∈ (react state request).2, Good answer)
    {state : σ} (hFits : Fits state) {requests : List α}
    (hRequests : ∀ request ∈ requests, Asked request) :
    ∀ answer ∈ answers react state requests, Good answer := by
  induction requests generalizing state with
  | nil =>
      intro answer hMem
      cases hMem
  | cons request requests ih =>
      obtain ⟨hFirst, hRest⟩ := List.forall_mem_cons.mp hRequests
      obtain ⟨hNext, hGood⟩ := hReact state request hFits hFirst
      intro answer hMem
      rcases List.mem_append.mp hMem with hNow | hLater
      · exact hGood answer hNow
      · exact ih hNext hRest answer hLater

/-- **Change of representation.**  A reaction to encoded requests that answers with
the encoded answers of another one does so over whole streams. -/
theorem answers_map {σ' α' β' : Type*} {react' : σ' → α' → σ' × List β'}
    {Related : σ → σ' → Prop} {Asked : α' → Prop} {encode : α' → α}
    {encodeAnswer : β' → β}
    (hReact : ∀ state state' request, Related state state' → Asked request →
      Related (react state (encode request)).1 (react' state' request).1 ∧
      (react state (encode request)).2 = (react' state' request).2.map encodeAnswer)
    {state : σ} {state' : σ'} (hRelated : Related state state')
    {requests : List α'} (hRequests : ∀ request ∈ requests, Asked request) :
    answers react state (requests.map encode) =
      (answers react' state' requests).map encodeAnswer := by
  induction requests generalizing state state' with
  | nil => rfl
  | cons request requests ih =>
      obtain ⟨hFirst, hRest⟩ := List.forall_mem_cons.mp hRequests
      obtain ⟨hNext, hAnswers⟩ := hReact state state' request hRelated hFirst
      show (react state (encode request)).2 ++
        answers react _ (requests.map encode) = _
      rw [hAnswers, ih hNext hRest, ← List.map_append]
      rfl

end Foundation
end KZEvent
