import ApiCatalog.Proofs.Watch.Budget

/-!
# Turns of a watch that is left alone

While nobody else changes the store, a move of the forwarder or of the worker is one of a few turns
(`Turn`). Each costs something of a budget, to which an outdated entry contributes the event of its
write, so that a watch goes on for a bounded number of moves, and what every turn preserves holds at
their end (`Budgeted.run`). From outside, a pass has its whole effect when it begins
(`Budgeted.effect`).
-/
namespace ApiCatalog.Watch

open Memory Program Trigger

namespace System

/-- Whether the forwarder or the worker, if it is its move, has something to do. -/
def busy (sys : System) : Move → Bool
  | .forward =>
    match sys.forwarder with
    | .listening => decide (sys.position < sys.store.published.length)
    | .delivering .. => true
  | .work _ =>
    match sys.worker with
    | .idle _ => !sys.waiting.isEmpty
    | .passing .. => true
    | .stopped => false
  | _ => false

def AtRest (sys : System) : Prop := ∀ move, sys.busy move = false

/-- The store as it will be when the pass under way has ended. -/
def ahead (sys : System) : Memory :=
  match sys.worker with
  | .passing _ _ rest => (rest.run perform sys.store).2
  | _ => sys.store

/-- The pass under way, with the result that it will have. -/
def ending (sys : System) : Option (Request × Except PassError Outcome) :=
  match sys.worker with
  | .passing _ request rest => some (request, (rest.run perform sys.store).1)
  | _ => none

/-- The events that are not read yet, and those that are still to come from outdated entries. -/
def unread (sys : System) : Nat :=
  sys.ahead.outdatedCount + (sys.ahead.published.length - sys.position)

/-- The pass that a move brings to its end. -/
def ended (sys : System) : Move → Option (Request × Except PassError Outcome)
  | .work _ =>
    match sys.worker with
    | .passing _ request (.done result) => some (request, result)
    | _ => none
  | _ => none

theorem writes_ahead (sys : System) : ∃ news, Writes sys.store sys.ahead news := by
  unfold ahead
  split
  · exact run_writes _ sys.store
  · exact ⟨[], .refl sys.store⟩

end System

section Parts

variable (setting : Setting)

/-- Moves of the forwarder and the worker in any order, as long as they have something to do. -/
def Works : System → List Move → Prop
  | _, [] => True
  | sys, move :: rest => sys.busy move = true ∧ Works (sys.step setting move) rest

instance decidableWorks : (sys : System) → (moves : List Move) → Decidable (Works setting sys moves)
  | _, [] => inferInstanceAs (Decidable True)
  | sys, move :: rest =>
    have := decidableWorks (sys.step setting move) rest
    inferInstanceAs (Decidable (sys.busy move = true ∧ Works setting (sys.step setting move) rest))

/-- The passes that end, in order, with their results. -/
def passes : System → List Move → List (Request × Except PassError Outcome)
  | _, [] => []
  | sys, move :: rest => (sys.ended move).toList ++ passes (sys.step setting move) rest

/-- A watch that nobody else disturbs, and that goes on for at most `budget` moves. -/
structure Budgeted (n r : Nat) (sys : System) (budget : Nat) : Prop where
  keyed : sys.store.Keyed
  sized : sys.store.Sized n r
  waiting : ∀ request ∈ sys.waiting, request.nameSpace = none
  plain : ∀ e ∈ sys.store.published.drop sys.position, e.Plain
  position_le : sys.position ≤ sys.store.published.length
  costs : ∃ forwarder worker, sys.forwarder.Owes n r forwarder ∧
    sys.worker.Owes setting.policy sys.store r worker ∧
    sys.unread * eventCost setting.watched n r + forwarder + sys.waiting.length * passCost r + worker ≤
      budget

/-- All that a move of a part that has something to do can be. -/
inductive Turn (sys : System) : System → Prop
  | received {e : Event} : sys.forwarder = .listening →
      sys.store.published[sys.position]? = some e →
      Turn sys { sys with
        position := sys.position + 1
        forwarder := .delivering e (requests setting.watched e) }
  | lagged {missed next : Nat} : sys.forwarder = .listening → sys.position < next →
      next ≤ sys.store.published.length →
      Turn sys { sys with position := next, missed := sys.missed + missed }
  | asked {e : Event} {call : Call} {next : call.Answer → Sender} :
      sys.forwarder = .delivering e (.ask call next) →
      Turn sys { sys with forwarder := .delivering e (next (respond call sys.store).1) }
  | sent {e : Event} {request : Request} {others : List Request} :
      sys.forwarder = .delivering e (.done (request :: others)) →
      Turn sys { sys with
        forwarder := .delivering e (.done others), waiting := sys.waiting ++ [request] }
  | delivered {e : Event} : sys.forwarder = .delivering e (.done []) →
      Turn sys { sys with forwarder := .listening }
  | took {tally : Loop.Tally} {request : Request} {others : List Request} (now : Instant) :
      sys.worker = .idle tally → sys.waiting = request :: others →
      Turn sys { sys with
        waiting := others
        worker := .passing tally request (reconcile setting.policy now request) }
  | performed {tally : Loop.Tally} {request : Request} {step : Pass.Step}
      {next : step.Answer → Program Pass.Step.Answer (Except PassError Outcome)} :
      sys.worker = .passing tally request (.ask step next) →
      Turn sys { sys with
        store := (perform step sys.store).2
        worker := .passing tally request (next (perform step sys.store).1) }
  | ended {tally : Loop.Tally} {request : Request} {result : Except PassError Outcome}
      (tally' : Loop.Tally) : sys.worker = .passing tally request (.done result) →
      Turn sys { sys with worker := .idle tally' }

end Parts

section Turns

variable {setting : Setting} {n r budget : Nat} {sys sys' : System}

theorem Budgeted.forward_turn (budgeted : Budgeted setting n r sys budget)
    (busy : sys.busy .forward = true) : Turn setting sys (sys.step setting .forward) := by
  obtain ⟨store, position, missed, forwarder, unlisted, starter, waiting, worker⟩ := sys
  obtain ⟨f, w, owes, -, -⟩ := budgeted.costs
  cases owes with
  | listening =>
    have unread : position < store.published.length := of_decide_eq_true busy
    rcases Feed.receive_of_lt unread with ⟨e, received, found⟩ | ⟨more, next, lagged, less, le⟩
    · simp only [System.step, System.forward, received]
      exact .received rfl found
    · simp only [System.step, System.forward, lagged]
      exact .lagged rfl less le
  | @delivering e sender asks sends listing takes =>
    cases sender with
    | ask call next =>
      have same := respond_listing store listing.1
      simp only [System.step, System.forward, Sender.advance, same]
      exact .asked rfl
    | done requests =>
      cases requests with
      | nil => exact .delivered rfl
      | cons request others => exact .sent rfl

theorem Budgeted.work_turn (budgeted : Budgeted setting n r sys budget) {now : Instant}
    (busy : sys.busy (.work now) = true) : Turn setting sys (sys.step setting (.work now)) := by
  obtain ⟨store, position, missed, forwarder, unlisted, starter, waiting, worker⟩ := sys
  obtain ⟨f, w, -, owes, -⟩ := budgeted.costs
  cases worker with
  | idle tally =>
    cases waiting with
    | nil => cases busy
    | cons request others => exact .took now rfl rfl
  | passing tally request rest =>
    cases rest with
    | ask step next => exact .performed rfl
    | done result =>
      -- Passes do not fail, so the worker goes on.
      obtain ⟨-, before, effect⟩ := owes.effect
      obtain ⟨outcome, rfl⟩ := effect.ok
      exact .ended _ rfl
  | stopped => cases busy

theorem Budgeted.turn (budgeted : Budgeted setting n r sys budget) {move : Move}
    (busy : sys.busy move = true) : Turn setting sys (sys.step setting move) := by
  cases move with
  | forward => exact budgeted.forward_turn busy
  | work now => exact budgeted.work_turn busy
  | mutate m => cases busy
  | enqueue => cases busy
  | stop => cases busy

/-- A turn of the worker as it shows from outside: a pass that begins has its whole effect at once,
and nothing else does anything to an entry. -/
theorem Budgeted.effect (budgeted : Budgeted setting n r sys budget)
    (turn : Turn setting sys sys') :
    (sys'.ahead = sys.ahead ∧ (sys'.ending = sys.ending ∨ sys'.ending = none) ∧
      sys.waiting ⊆ sys'.waiting) ∨
    ∃ request result, sys.waiting = request :: sys'.waiting ∧
      sys'.ending = some (request, result) ∧
      Effect sys.ahead request.entryKey result sys'.ahead := by
  cases turn with
  | received => exact .inl ⟨rfl, .inl rfl, fun _ => id⟩
  | lagged => exact .inl ⟨rfl, .inl rfl, fun _ => id⟩
  | asked => exact .inl ⟨rfl, .inl rfl, fun _ => id⟩
  | sent => exact .inl ⟨rfl, .inl rfl, List.subset_append_left _ _⟩
  | delivered => exact .inl ⟨rfl, .inl rfl, fun _ => id⟩
  | @took tally request others now idle waiting =>
    have plain := budgeted.waiting request (waiting ▸ List.mem_cons_self)
    have here : sys.ahead = sys.store := by rw [System.ahead, idle]
    rw [here]
    exact .inr ⟨request, _, waiting, rfl, pass_effect budgeted.keyed plain setting.policy now⟩
  | performed passing =>
    refine .inl ⟨?_, .inl ?_, fun _ => id⟩
    · simp only [System.ahead, passing, Program.run_ask_apply]
    · simp only [System.ending, passing, Program.run_ask_apply]
  | ended tally passing =>
    refine .inl ⟨?_, .inr rfl, fun _ => id⟩
    simp only [System.ahead, passing]
    rfl

/-- A turn publishes only what it writes. -/
theorem Turn.writes (turn : Turn setting sys sys') : ∃ news, Writes sys.store sys'.store news := by
  cases turn with
  | performed => exact perform_writes sys.store _
  | _ => exact ⟨[], .refl sys.store⟩

theorem Turn.onward (turn : Turn setting sys sys')
    (position_le : sys.position ≤ sys.store.published.length) :
    sys.position ≤ sys'.position ∧ sys'.position ≤ sys'.store.published.length := by
  cases turn with
  | received listening found =>
    exact ⟨Nat.le_succ _, (List.getElem?_eq_some_iff.1 found).1⟩
  | lagged listening less le => exact ⟨Nat.le_of_lt less, le⟩
  | @performed tally request step next passing =>
    obtain ⟨news, writes⟩ := perform_writes sys.store step
    refine ⟨Nat.le_refl _, ?_⟩
    rw [writes.published, List.length_append]
    exact Nat.le_add_right_of_le position_le
  | _ => exact ⟨Nat.le_refl _, position_le⟩

theorem Budgeted.plain_turn (budgeted : Budgeted setting n r sys budget)
    (turn : Turn setting sys sys') :
    ∀ e ∈ sys'.store.published.drop sys'.position, e.Plain := by
  obtain ⟨news, writes⟩ := turn.writes
  obtain ⟨le, -⟩ := turn.onward budgeted.position_le
  intro e inside
  have further : e ∈ sys'.store.published.drop sys.position :=
    (List.drop_sublist_drop_left _ le).subset inside
  rw [writes.published, List.drop_append_of_le_length budgeted.position_le] at further
  rcases List.mem_append.1 further with old | new
  · exact budgeted.plain e old
  · exact writes.plain e new

theorem Budgeted.waiting_turn (budgeted : Budgeted setting n r sys budget)
    (turn : Turn setting sys sys') : ∀ request ∈ sys'.waiting, request.nameSpace = none := by
  obtain ⟨f, w, owes, -, -⟩ := budgeted.costs
  have before := budgeted.waiting
  cases turn with
  | sent delivering =>
    rw [delivering] at owes
    exact List.forall_mem_append.2 ⟨before, List.forall_mem_singleton.2 owes.sent.1⟩
  | took now idle waiting =>
    rw [waiting] at before
    exact (List.forall_mem_cons.1 before).2
  | _ => exact before

theorem Budgeted.stored_turn (budgeted : Budgeted setting n r sys budget)
    (turn : Turn setting sys sys') : sys'.store.Keyed ∧ sys'.store.Sized n r := by
  cases turn with
  | performed => exact ⟨budgeted.keyed.perform _, budgeted.sized.perform _⟩
  | _ => exact ⟨budgeted.keyed, budgeted.sized⟩

/-- A turn takes from what is left to be read what it reads. -/
theorem Budgeted.unread_eq (budgeted : Budgeted setting n r sys budget)
    (turn : Turn setting sys sys') :
    sys'.unread + (sys'.position - sys.position) = sys.unread := by
  obtain ⟨onward, bound⟩ := turn.onward budgeted.position_le
  obtain ⟨news, before⟩ := sys.writes_ahead
  obtain ⟨news', after⟩ := sys'.writes_ahead
  have length := congrArg List.length before.published
  have length' := congrArg List.length after.published
  rw [List.length_append] at length length'
  have position_le := budgeted.position_le
  have sum : sys'.ahead.outdatedCount + sys'.ahead.published.length =
      sys.ahead.outdatedCount + sys.ahead.published.length := by
    rcases budgeted.effect turn with ⟨same, -⟩ | ⟨request, result, -, -, effect⟩
    · rw [same]
    · exact effect.outdatedCount_add
  unfold System.unread
  omega

theorem Budgeted.costs_turn (budgeted : Budgeted setting n r sys budget)
    (turn : Turn setting sys sys') :
    ∃ forwarder worker, sys'.forwarder.Owes n r forwarder ∧
      sys'.worker.Owes setting.policy sys'.store r worker ∧
      sys'.unread * eventCost setting.watched n r + forwarder +
        sys'.waiting.length * passCost r + worker < budget := by
  have unread := budgeted.unread_eq turn
  obtain ⟨f, w, forwarder, worker, bound⟩ := budgeted.costs
  cases turn with
  | @received e listening found =>
    have inside : e ∈ sys.store.published.drop sys.position := by
      obtain ⟨less, rfl⟩ := List.getElem?_eq_some_iff.1 found
      exact List.drop_eq_getElem_cons less ▸ List.mem_cons_self
    obtain ⟨fewer, costs, owes⟩ := owes_received n r setting.watched (budgeted.plain e inside)
    refine ⟨fewer, w, owes, worker, ?_⟩
    rw [← unread, Nat.add_sub_cancel_left, Nat.succ_mul] at bound
    dsimp only
    omega
  | @lagged missed next listening less le =>
    refine ⟨f, w, forwarder, worker, Nat.lt_of_lt_of_le ?_ bound⟩
    have positive : 0 < eventCost setting.watched n r := Nat.succ_pos _
    have fewer := Nat.mul_lt_mul_of_pos_right (Nat.sub_pos_of_lt less) positive
    rw [← unread, Nat.add_mul]
    dsimp only
    omega
  | asked delivering =>
    rw [delivering] at forwarder
    obtain ⟨fewer, rfl, owes⟩ := forwarder.asked (lists_respond budgeted.sized _)
    rw [← unread, Nat.sub_self, Nat.add_zero] at bound
    refine ⟨fewer, w, owes, worker, ?_⟩
    dsimp only
    omega
  | sent delivering =>
    rw [delivering] at forwarder
    obtain ⟨-, fewer, rfl, owes⟩ := forwarder.sent
    rw [← unread, Nat.sub_self, Nat.add_zero] at bound
    refine ⟨fewer, w, owes, worker, ?_⟩
    rw [List.length_append, List.length_singleton, Nat.succ_mul]
    omega
  | delivered delivering =>
    rw [delivering] at forwarder
    have owed := forwarder.delivered
    rw [← unread, Nat.sub_self, Nat.add_zero] at bound
    refine ⟨0, w, .listening, worker, ?_⟩
    dsimp only
    omega
  | @took tally request others now idle waiting =>
    rw [← unread, Nat.sub_self, Nat.add_zero, waiting, List.length_cons, Nat.succ_mul] at bound
    have plain := budgeted.waiting request (waiting ▸ List.mem_cons_self)
    obtain ⟨costs, whole, owes⟩ := owes_taken budgeted.keyed plain now
    refine ⟨f, costs, forwarder, owes, ?_⟩
    dsimp only
    omega
  | performed passing =>
    rw [passing] at worker
    obtain ⟨fewer, rfl, owes⟩ := worker.performed budgeted.sized
    rw [← unread, Nat.sub_self, Nat.add_zero] at bound
    refine ⟨f, fewer, forwarder, owes, ?_⟩
    dsimp only
    omega
  | ended tally' passing =>
    rw [passing] at worker
    have owed := worker.effect.1
    rw [← unread, Nat.sub_self, Nat.add_zero] at bound
    refine ⟨f, 0, forwarder, .idle tally', ?_⟩
    dsimp only
    omega

/-- Each turn costs something. -/
theorem Budgeted.step (budgeted : Budgeted setting n r sys budget) {move : Move}
    (busy : sys.busy move = true) :
    ∃ fewer, budget = fewer + 1 ∧ Budgeted setting n r (sys.step setting move) fewer := by
  have turn := budgeted.turn busy
  obtain ⟨f, w, forwarder, worker, bound⟩ := budgeted.costs_turn turn
  obtain ⟨keyed, sized⟩ := budgeted.stored_turn turn
  refine ⟨budget - 1, by omega, keyed, sized, budgeted.waiting_turn turn,
    budgeted.plain_turn turn, (turn.onward budgeted.position_le).2, f, w, forwarder, worker, ?_⟩
  omega

/-- What each turn preserves holds as long as the watch goes on, which is not for longer than its
budget. -/
theorem Budgeted.run {P : System → Prop}
    (preserved : ∀ {a b left}, Budgeted setting n r a left → Turn setting a b → P a → P b)
    {moves : List Move} (budgeted : Budgeted setting n r sys budget)
    (works : Works setting sys moves) (holds : P sys) :
    ∃ left, budget = moves.length + left ∧ Budgeted setting n r (sys.run setting moves) left ∧
      P (sys.run setting moves) := by
  induction moves generalizing sys budget with
  | nil => exact ⟨budget, (Nat.zero_add budget).symm, budgeted, holds⟩
  | cons move rest ih =>
    obtain ⟨busy, works⟩ := works
    obtain ⟨fewer, rfl, after⟩ := budgeted.step busy
    obtain ⟨left, rfl, ended⟩ := ih after works (preserved budgeted (budgeted.turn busy) holds)
    exact ⟨left, by rw [List.length_cons]; omega, ended⟩

end Turns

end ApiCatalog.Watch
