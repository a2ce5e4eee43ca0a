import MbmsMiddleware.System

/-! Requests in runs of the middleware. They are handled side by side, and what
each of them keeps as it goes on holds of all of them. -/

namespace MbmsMiddleware

variable {D : Type}

/-- The request that an event is, if it is one. -/
def SystemEvent.asked : SystemEvent D → Option (HttpMethod × HttpRequest)
  | .request method message => some (method, message)
  | _ => none

namespace System

variable [DoubleText D] {env : SystemEnvironment D} {cfg : SystemConfig} {s : System D}

theorem requests_step {e : SystemEvent D} (hs : s.running = true ∧ s.Defined env e) :
    (s.step env cfg e).requests = s.requests ∧ e.asked = none ∨
    (∃ method message, e.asked = some (method, message) ∧
      (s.step env cfg e).requests =
        s.requests ++ [{ program := handler env cfg message method }]) ∨
    e.asked = none ∧ ∃ idx now answer q, s.requests[idx]? = some q ∧
      (s.step env cfg e).requests =
        s.requests.set idx (q.advance (answering env now answer) s.state).1 := by
  unfold step
  rw [if_pos hs]
  cases e with
  | announcement file =>
    obtain ⟨process, handlers, running, hannounce⟩ := announce_frame env cfg s file
    dsimp only
    rw [hannounce]
    exact .inl ⟨rfl, rfl⟩
  | handler =>
    obtain ⟨firstStream, firstService, hproceed⟩ := proceed_frame env s
    dsimp only
    rw [hproceed]
    exact .inl ⟨rfl, rfl⟩
  | reception a indeterminate r => exact .inl ⟨rfl, rfl⟩
  | download x now file => exact .inl ⟨rfl, rfl⟩
  | tick mchs clock =>
    obtain ⟨process, running, htick⟩ := tick_frame cfg s mchs clock
    dsimp only
    rw [htick]
    exact .inl ⟨rfl, rfl⟩
  | request method message => exact .inr (.inl ⟨method, message, rfl, rfl⟩)
  | call idx now answer =>
    dsimp only
    unfold call
    cases hq : s.requests[idx]? with
    | none => exact .inl ⟨rfl, rfl⟩
    | some q => exact .inr (.inr ⟨rfl, idx, now, answer, q, hq, rfl⟩)

/-- The requests of a run are the first of those asked, all of them as long as the
process runs, and each is as it should be. -/
structure Asked (Q : List (SystemEvent D) → Nat → HttpMethod × HttpRequest → Request D → Prop)
    (es : List (SystemEvent D)) (s : System D) : Prop where
  all : s.running = true → s.requests.length = (es.filterMap SystemEvent.asked).length
  each : ∀ (idx : Nat) (q : Request D), s.requests[idx]? = some q →
    ∃ x, (es.filterMap SystemEvent.asked)[idx]? = some x ∧ Q es idx x q

variable {Q : List (SystemEvent D) → Nat → HttpMethod × HttpRequest → Request D → Prop}

omit [DoubleText D] in
theorem Asked.mono (hmono : ∀ es es' idx x q, Q es idx x q → Q (es ++ es') idx x q)
    {es es' : List (SystemEvent D)} (h : Asked Q es s) {idx : Nat} {q : Request D}
    (hq : s.requests[idx]? = some q) :
    ∃ x, ((es ++ es').filterMap SystemEvent.asked)[idx]? = some x ∧ Q (es ++ es') idx x q := by
  obtain ⟨x, hx, hasked⟩ := h.each idx q hq
  refine ⟨x, ?_, hmono _ _ _ _ _ hasked⟩
  rw [List.filterMap_append, List.getElem?_append_left (List.getElem?_eq_some_iff.mp hx).1]
  exact hx

/-- A law of requests: what holds of a new request and is kept as a request goes on
holds of all requests of a run. -/
theorem requests_law
    (hfresh : ∀ es idx method message,
      Q es idx (method, message) { program := handler env cfg message method })
    (hmono : ∀ es es' idx x q, Q es idx x q → Q (es ++ es') idx x q)
    (hadvance : ∀ es idx x q now answer, idx < (es.filterMap SystemEvent.asked).length →
      Q es idx x q → Q es idx x (q.advance (answering env now answer)
        (es.foldl (step env cfg) (start env cfg)).state).1)
    (es : List (SystemEvent D)) : Asked Q es (es.foldl (step env cfg) (start env cfg)) := by
  induction es using List.reverseRecOn with
  | nil => exact ⟨fun _ => rfl, fun _ _ h => by cases h⟩
  | append_singleton es e ih =>
    rw [List.foldl_append, List.foldl_cons, List.foldl_nil]
    by_cases hs : (es.foldl (step env cfg) (start env cfg)).running = true ∧
        (es.foldl (step env cfg) (start env cfg)).Defined env e
    · have hall := ih.all hs.1
      rcases requests_step hs with ⟨hsame, hasked⟩ | ⟨method, message, hasked, hnew⟩ |
        ⟨hasked, idx, now, answer, q, hq, hset⟩
      · refine ⟨fun _ => ?_, fun idx q hq => ?_⟩
        · rw [hsame, List.filterMap_append, List.length_append, hall]
          simp [hasked]
        · rw [hsame] at hq
          exact ih.mono hmono hq
      · refine ⟨fun _ => ?_, fun idx q hq => ?_⟩
        · rw [hnew, List.filterMap_append, List.length_append, List.length_append, hall]
          simp [hasked]
        · rw [hnew] at hq
          by_cases hidx : idx < (es.foldl (step env cfg) (start env cfg)).requests.length
          · rw [List.getElem?_append_left hidx] at hq
            exact ih.mono hmono hq
          · rw [List.getElem?_append_right (not_lt.mp hidx)] at hq
            obtain ⟨hlt, hnewq⟩ := List.getElem?_eq_some_iff.mp hq
            rw [List.length_singleton] at hlt
            have hlast : idx = (es.filterMap SystemEvent.asked).length := by omega
            rw [List.getElem_singleton] at hnewq
            refine ⟨(method, message), ?_, ?_⟩
            · rw [List.filterMap_append, hlast, List.getElem?_append_right le_rfl]
              simp [hasked]
            · rw [← hnewq]
              exact hfresh _ idx method message
      · refine ⟨fun _ => ?_, fun idx' q' hq' => ?_⟩
        · rw [hset, List.length_set, List.filterMap_append, List.length_append, hall]
          simp [hasked]
        · rw [hset, List.getElem?_set] at hq'
          split_ifs at hq' with hidx
          · obtain rfl := Option.some.inj hq'
            subst hidx
            obtain ⟨x, hx, hasked'⟩ := ih.each idx q hq
            have hlt := (List.getElem?_eq_some_iff.mp hx).1
            refine ⟨x, ?_, hmono _ _ _ _ _ (hadvance es idx x q now answer hlt hasked')⟩
            rw [List.filterMap_append, List.getElem?_append_left hlt]
            exact hx
          · exact ih.mono hmono hq'
    · rw [step_of_undefined env cfg hs]
      exact ⟨fun h => (Bool.false_ne_true h).elim, fun idx q hq => ih.mono hmono hq⟩

end System

end MbmsMiddleware
