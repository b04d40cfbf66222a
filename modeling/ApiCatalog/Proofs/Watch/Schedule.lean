import ApiCatalog.Proofs.Watch.Coverage

/-!
# A watch that takes turns

`Trigger.forward` follows the feed on its own, and `Watch.settle` lets the forwarder read the feed
to its end before each pass. These are orders in which the parts of a watch can move
(`run_forward_reaches`, `settle_reaches`). So what holds after any moves holds for them too: once a
watch is at rest, no entry of its partitions is outdated (`settle_leaves_none_outdated`).
-/
namespace ApiCatalog.Watch

open Memory Trigger

/-- Some moves lead from the first state to the second. -/
def Reaches (setting : Setting) (a b : System) : Prop := ∃ moves, a.run setting moves = b

namespace Reaches

variable {setting : Setting} {a b c : System}

theorem refl (setting : Setting) (a : System) : Reaches setting a a := ⟨[], rfl⟩

theorem trans (first : Reaches setting a b) (second : Reaches setting b c) :
    Reaches setting a c := by
  obtain ⟨moves, rfl⟩ := first
  obtain ⟨more, rfl⟩ := second
  exact ⟨moves ++ more, List.foldl_append⟩

/-- A move and then some more. -/
theorem head (move : Move) (rest : Reaches setting (a.step setting move) b) :
    Reaches setting a b := by
  obtain ⟨moves, rfl⟩ := rest
  exact ⟨move :: moves, rfl⟩

end Reaches

variable (setting : Setting)

section Sending

theorem send_reaches (sys : System) (e : Event) (requests : List Request) :
    Reaches setting { sys with forwarder := .delivering e (.done requests) }
      { sys with forwarder := .listening, waiting := sys.waiting ++ requests } := by
  induction requests generalizing sys with
  | nil =>
    refine .head .forward ?_
    rw [List.append_nil]
    exact .refl setting _
  | cons request rest ih =>
    have others := ih { sys with waiting := sys.waiting ++ [request] }
    rw [List.append_assoc] at others
    exact .head .forward others

/-- The forwarder delivers an event without a break. -/
theorem deliver_reaches (sys : System) (e : Event) {sender : Sender}
    (listing : sender.Asks IsListing) :
    Reaches setting { sys with forwarder := .delivering e sender }
      { sys with
        forwarder := .listening, waiting := sys.waiting ++ (sender.run respond sys.store).1 } := by
  induction sender with
  | ask call next ih =>
    have same := respond_listing sys.store listing.1
    have first : (Program.ask call next).run respond sys.store =
        (next (respond call sys.store).1).run respond (respond call sys.store).2 := rfl
    have moved : System.step setting { sys with forwarder := .delivering e (.ask call next) }
        .forward = { sys with
          forwarder := .delivering e (next (respond call sys.store).1)
          store := (respond call sys.store).2 } := rfl
    rw [same] at first moved
    refine .head .forward ?_
    rw [moved, first]
    exact ih _ (listing.2 _)
  | done requests => exact send_reaches setting sys e requests

/-- The worker makes the rest of a pass without a break. -/
theorem perform_reaches (sys : System) (tally : Loop.Tally) (request : Request)
    (rest : Program Pass.Step.Answer (Except PassError Outcome)) :
    Reaches setting { sys with worker := .passing tally request rest }
      { sys with
        store := (rest.run perform sys.store).2
        worker := .passing tally request (.done (rest.run perform sys.store).1) } := by
  induction rest generalizing sys with
  | done result => exact .refl setting _
  | ask step next ih =>
    have others := ih (perform step sys.store).1 { sys with store := (perform step sys.store).2 }
    exact .head (.work .epoch) others

end Sending

section Forwarding

theorem forwardAll_cons (watched : List Partition) (e : Event) (rest : List Event)
    (waiting : List Request) (s : Memory) :
    forwardAll watched respond (e :: rest) ⟨false, waiting⟩ s =
      forwardAll watched respond rest
        ⟨false, waiting ++ ((requests watched e).run respond s).1⟩ s := by
  have first : forwardAll watched respond (e :: rest) ⟨false, waiting⟩ s =
      forwardAll watched respond rest
        ⟨false, waiting ++ ((requests watched e).run respond s).1⟩
        ((requests watched e).run respond s).2 := rfl
  rw [first, run_respond_listing s (asks_requests watched e)]

/-- The forwarder receives an event and delivers it without a break. -/
theorem event_reaches (sys : System) (listening : sys.forwarder = .listening) {e : Event}
    {next : Nat}
    (received : Feed.receive sys.store.published sys.position = .event e next) :
    Reaches setting sys { sys with
      position := next
      waiting := sys.waiting ++ ((requests setting.watched e).run respond sys.store).1 } := by
  have moved : sys.step setting .forward = { sys with
      position := next, forwarder := .delivering e (requests setting.watched e) } := by
    simp only [System.step, System.forward, listening, received]
  have delivered := deliver_reaches setting { sys with position := next } e
    (asks_requests setting.watched e)
  rw [← listening] at delivered
  exact .head .forward (moved ▸ delivered)

/-- The forwarder reads what is in the feed, as long as it is not too far behind. -/
theorem forward_reaches (sys : System) (listening : sys.forwarder = .listening)
    (near : sys.store.published.length ≤ sys.position + Feed.capacity)
    (bound : sys.position ≤ sys.store.published.length)
    {events : List Event} (left : sys.store.published.drop sys.position = events) :
    ∃ waiting, forwardAll setting.watched respond events ⟨false, sys.waiting⟩ sys.store =
        (⟨false, waiting⟩, sys.store) ∧
      Reaches setting sys
        { sys with position := sys.store.published.length, waiting } := by
  induction events generalizing sys with
  | nil =>
    have read : sys.position = sys.store.published.length :=
      Nat.le_antisymm bound (List.drop_eq_nil_iff.1 left)
    refine ⟨sys.waiting, rfl, ?_⟩
    rw [← read]
    exact .refl setting sys
  | cons e rest ih =>
    have here : sys.store.published[sys.position]? = some e := by
      rw [← List.head?_drop, left]
      rfl
    have others : sys.store.published.drop (sys.position + 1) = rest := by
      rw [← List.tail_drop, left]
      rfl
    have bound' := (List.getElem?_eq_some_iff.1 here).1
    have near' : sys.store.published.length ≤ sys.position + 1 + Feed.capacity := by omega
    have here := event_reaches setting sys listening (Feed.receive_of_near near here)
    obtain ⟨waiting, forwarded, read⟩ := ih { sys with
        position := sys.position + 1
        waiting := sys.waiting ++ ((requests setting.watched e).run respond sys.store).1 }
      listening near' bound' others
    exact ⟨waiting, (forwardAll_cons ..).trans forwarded, here.trans read⟩

end Forwarding

section Alone

/-- The feed that a forwarder reads which is alone with the store and the queue. -/
def published : StateM (Memory × Queue) (List Event) := do return (← get).1.published

def answer (call : Call) : StateM (Memory × Queue) call.Answer := fun w =>
  let reply := respond call w.1
  (reply.1, reply.2, w.2)

def send (requests : List Request) : StateM (Memory × Queue) Bool := fun w =>
  match w.2.send? requests with
  | some queue => (true, w.1, queue)
  | none => (false, w)

theorem run_answer {α : Type} (program : Program Call.Answer α) (s : Memory) (queue : Queue) :
    program.run answer (s, queue) =
      ((program.run respond s).1, (program.run respond s).2, queue) := by
  induction program generalizing s with
  | done a => rfl
  | ask call next ih => exact ih _ _

/-- What the forwarder does next is decided by what it receives. -/
theorem forward_succ (watched : List Partition) (fuel position : Nat) (s : Memory)
    (waiting : List Request) :
    Trigger.forward watched published answer send (fuel + 1) position (s, ⟨false, waiting⟩) =
      match Feed.receive s.published position with
      | .nothing => (.upTo position, s, ⟨false, waiting⟩)
      | .lagged _ next =>
        Trigger.forward watched published answer send fuel next (s, ⟨false, waiting⟩)
      | .event e next => Trigger.forward watched published answer send fuel next
          (s, ⟨false, waiting ++ ((requests watched e).run respond s).1⟩) := by
  have read (queue : Queue) : published (s, queue) = (s.published, s, queue) := rfl
  change (published >>= _) _ = _
  rw [stateM_bind_apply, read]
  dsimp only
  cases Feed.receive s.published position with
  | nothing => rfl
  | lagged missed next => rfl
  | event e next =>
    dsimp only
    rw [stateM_bind_apply, run_answer, run_respond_listing s (asks_requests watched e)]
    rfl

/-- A forwarder that runs on its own makes moves of the system, and with enough fuel it reads the
feed to its end. -/
theorem run_forward_reaches (sys : System) (listening : sys.forwarder = .listening) (fuel : Nat) :
    ∃ position missed waiting,
      Trigger.forward setting.watched published answer send fuel sys.position
          (sys.store, ⟨false, sys.waiting⟩) =
        (.upTo position, sys.store, ⟨false, waiting⟩) ∧
      Reaches setting sys { sys with position, missed, waiting } ∧
      (sys.position ≤ sys.store.published.length →
        sys.store.published.length ≤ sys.position + fuel →
          position = sys.store.published.length) := by
  induction fuel generalizing sys with
  | zero =>
    exact ⟨sys.position, sys.missed, sys.waiting, rfl, .refl setting sys, Nat.le_antisymm⟩
  | succ fuel ih =>
    rw [forward_succ]
    cases received : Feed.receive sys.store.published sys.position with
    | nothing =>
      refine ⟨sys.position, sys.missed, sys.waiting, rfl, .refl setting sys, fun bound _ => ?_⟩
      by_contra unread
      obtain ⟨e, given, -⟩ | ⟨missed, next, given, -⟩ :=
        Feed.receive_of_lt (Nat.lt_of_le_of_ne bound unread)
      · cases received.symm.trans given
      · cases received.symm.trans given
    | lagged missed next =>
      have moved : sys.step setting .forward =
          { sys with position := next, missed := sys.missed + missed } := by
        simp only [System.step, System.forward, listening, received]
      obtain ⟨position, missed', waiting, ran, reached, read⟩ :=
        ih { sys with position := next, missed := sys.missed + missed } listening
      obtain ⟨-, further, bound⟩ := Feed.receive_lagged received
      exact ⟨position, missed', waiting, ran, .head .forward (moved ▸ reached),
        fun _ enough => read bound (by dsimp only; omega)⟩
    | event e next =>
      obtain ⟨position, missed, waiting, ran, reached, read⟩ := ih { sys with
        position := next
        waiting := sys.waiting ++ ((requests setting.watched e).run respond sys.store).1 } listening
      refine ⟨position, missed, waiting, ran,
        (event_reaches setting sys listening received).trans reached, ?_⟩
      obtain ⟨found, rfl⟩ := Feed.receive_event received
      have unread := (List.getElem?_eq_some_iff.1 found).1
      exact fun _ enough => read unread (by dsimp only; omega)

end Alone

section Settling

/-- A watch in which start-up is over and only the worker's queue and the feed are left. -/
def System.ofState (state : State) (s : Memory) : System where
  store := s
  position := state.position
  missed := 0
  forwarder := .listening
  unlisted := []
  starter := .done []
  waiting := state.queue.waiting
  worker := .idle state.tally

/-- The end of a watch that takes turns is one of the states that the moves of its parts lead to. -/
def EndsIn (sys : System) : Rest × Memory → Prop
  | (.idle state, s) => Reaches setting sys (.ofState state s)
  | (.finished _, s) =>
    ∃ ended, Reaches setting sys ended ∧ ended.worker = .stopped ∧ ended.store = s

variable {setting} in
theorem EndsIn.after {a b : System} {outcome : Rest × Memory} (first : Reaches setting a b)
    (rest : EndsIn setting b outcome) : EndsIn setting a outcome := by
  obtain ⟨ended | result, s⟩ := outcome
  · exact first.trans rest
  · obtain ⟨ended, more, stopped, same⟩ := rest
    exact ⟨ended, first.trans more, stopped, same⟩

/-- The feed of a store, read in the middle of a computation on it. -/
def feed : StateM Memory (List Event) := do return (← get).published

/-- A pass adds at most one event to the feed. -/
theorem published_pass {s : Memory} (keyed : s.Keyed) (policy : SchemaPolicy) (now : Instant)
    (request : Request) :
    s.published.length ≤ (s.pass policy now request).2.published.length ∧
      (s.pass policy now request).2.published.length ≤ s.published.length + 1 := by
  rcases pass_store keyed policy now request with same | ⟨entry, status, written⟩
  · rw [same]
    omega
  · rw [written, withStatus_published, List.length_append, List.length_singleton]
    omega

/-- One turn of the forwarder and one of the worker. -/
theorem settle_succ {limits : Loop.Limits} {watched : List Partition}
    {pass : Request → StateM Memory (Except PassError Outcome)} {state state' : State}
    {s s' : Memory} (forwarded : forward watched feed respond state s = (state', s'))
    (patience : Nat) :
    settle limits watched feed respond pass (patience + 1) state s =
      match state'.queue.waiting with
      | [] => (.idle state', s')
      | request :: waiting =>
        match state'.tally.rule limits (pass request s').1 with
        | .finish result => (.finished result, (pass request s').2)
        | .proceed tally =>
          settle limits watched feed respond pass patience
            { state' with queue := { state'.queue with waiting }, tally } (pass request s').2 := by
  rw [settle, stateM_bind_apply, forwarded]
  dsimp only
  cases state'.queue.waiting with
  | nil => rfl
  | cons request waiting =>
    dsimp only
    rw [stateM_bind_apply]
    cases state'.tally.rule limits (pass request s').1 with
    | proceed tally => rfl
    | finish result => rfl

/-- The worker counts the end of a pass. -/
theorem rule_step (now : Instant) (sys : System) (tally : Loop.Tally) (request : Request)
    (result : Except PassError Outcome) :
    System.step setting { sys with worker := .passing tally request (.done result) } (.work now) =
      match tally.rule setting.limits result with
      | .proceed tally => { sys with worker := .idle tally }
      | .finish _ => { sys with worker := .stopped } := by
  cases ruling : tally.rule setting.limits result with
  | proceed tally => simp only [System.step, System.work, ruling]
  | finish result => simp only [System.step, System.work, ruling]

/-- A watch that forwards everything before each pass goes through states of the system. -/
theorem settle_reaches (now : Instant) (patience : Nat) {state : State} {s : Memory}
    (keyed : s.Keyed) (taking : state.queue.closed = false)
    (bound : state.position ≤ s.published.length)
    (near : s.published.length ≤ state.position + Feed.capacity) :
    EndsIn setting (.ofState state s) (settle setting.limits setting.watched feed respond
      (pass setting.policy now) patience state s) := by
  induction patience generalizing state s with
  | zero => exact .refl setting _
  | succ patience ih =>
    obtain ⟨⟨closed, queued⟩, position, tally⟩ := state
    cases taking
    obtain ⟨waiting, forwarded, read⟩ := forward_reaches setting
      (.ofState ⟨⟨false, queued⟩, position, tally⟩ s) rfl near bound rfl
    have turn : forward setting.watched feed respond ⟨⟨false, queued⟩, position, tally⟩ s =
        (⟨⟨false, waiting⟩, s.published.length, tally⟩, s) := by
      rw [forward, stateM_bind_apply, stateM_bind_apply]
      exact congrArg (fun done => (State.mk done.1 s.published.length tally, done.2)) forwarded
    rw [settle_succ turn]
    -- All moves of the forwarder come first, then those of the worker up to the end of the pass.
    refine .after read ?_
    cases waiting with
    | nil => exact .refl setting _
    | cons request waiting =>
      have made := perform_reaches setting
        (.ofState ⟨⟨false, waiting⟩, s.published.length, tally⟩ s) tally request
        (reconcile setting.policy now request)
      refine .after (.head (.work now) made) ?_
      obtain ⟨more, fewer⟩ := published_pass keyed setting.policy now request
      dsimp only
      have ruled := rule_step setting now
        { System.ofState ⟨⟨false, waiting⟩, s.published.length, tally⟩ s with
          store := (s.pass setting.policy now request).2 } tally request
        (s.pass setting.policy now request).1
      cases ruling : tally.rule setting.limits (s.pass setting.policy now request).1 with
      | finish result =>
        rw [ruling] at ruled
        exact ⟨_, .head (.work now) ⟨[], ruled⟩, rfl, rfl⟩
      | proceed tally' =>
        rw [ruling] at ruled
        refine .after (.head (.work now) ⟨[], ruled⟩) ?_
        have kept : 1 ≤ Feed.capacity := by decide
        exact ih (keyed_pass keyed setting.policy now request) rfl more
          (Nat.le_trans fewer (Nat.add_le_add_left kept _))

end Settling

section Starting

/-- Start-up sends what it has found for a partition. -/
theorem enqueue_reaches (sys : System) (requests : List Request) :
    Reaches setting { sys with starter := .done requests }
      { sys with starter := .done [], waiting := sys.waiting ++ requests } := by
  induction requests generalizing sys with
  | nil =>
    rw [List.append_nil]
    exact .refl setting _
  | cons request rest ih =>
    have others := ih { sys with waiting := sys.waiting ++ [request] }
    rw [List.append_assoc] at others
    exact .head .enqueue others

/-- A queue after partitions were enqueued one after the other. -/
def enqueued (s : Memory) (partitions : List Partition) (queue : Queue) : Queue :=
  partitions.foldl (fun queue partition => ((enqueueAll partition queue).run respond s).1.2) queue

/-- Start-up enqueues one partition after the other. -/
theorem list_reaches (sys : System) (sent : sys.starter = .done []) {partitions : List Partition}
    (unlisted : sys.unlisted = partitions) :
    Reaches setting sys { sys with
      unlisted := []
      starter := .done []
      waiting := (enqueued sys.store partitions ⟨false, sys.waiting⟩).waiting } := by
  induction partitions generalizing sys with
  | nil =>
    obtain ⟨store, position, missed, forwarder, _, _, waiting, worker⟩ := sys
    cases sent
    cases unlisted
    exact .refl setting _
  | cons partition rest ih =>
    obtain ⟨store, position, missed, forwarder, _, _, waiting, worker⟩ := sys
    cases sent
    cases unlisted
    let requests := (store.listEntries partition).map (Request.forEntry partition)
    have here := enqueue_reaches setting
      ⟨store, position, missed, forwarder, rest, .done [], waiting, worker⟩ requests
    have others := ih ⟨store, position, missed, forwarder, rest, .done [], waiting ++ requests,
      worker⟩ rfl rfl
    exact .head .enqueue (.head .enqueue (here.trans others))

theorem start_reaches (s : Memory) :
    Reaches setting (.start setting s)
      (.ofState { State.start s.published.length with
        queue := enqueued s setting.watched ⟨false, []⟩ } s) :=
  list_reaches setting (.start setting s) rfl rfl

theorem enqueued_closed (s : Memory) (partitions : List Partition) (waiting : List Request) :
    (enqueued s partitions ⟨false, waiting⟩).closed = false := by
  induction partitions generalizing waiting with
  | nil => rfl
  | cons partition rest ih => exact ih _

end Starting

variable {setting} in
/-- In a watch at rest, with nothing queued and the feed read to its end, a fresh pass over any
entry of a watched partition has nothing to write. -/
theorem settled_at_rest {store : Memory} (keyed : store.Keyed) {state : State} {s : Memory}
    (reached : Reaches setting (.start setting store) (.ofState state s))
    (handled : state.queue.waiting = []) (read : state.position = s.published.length)
    {request : Request} (listed : request.partition ∈ setting.watched)
    (plain : request.nameSpace = none) {entry : CatalogEntry}
    (found : s.getEntry request.partition request.name = .ok entry) (now : Instant) :
    ∃ invalid, s.pass setting.policy now request = (.ok (.unchanged invalid), s) := by
  obtain ⟨moves, ended⟩ := reached
  have sound : Sound setting (.ofState state s) := ended ▸ (sound_start setting keyed).run moves
  obtain ⟨-, stored⟩ := sound.keyed.getEntry_eq_ok_iff.1 found
  cases sound.covered rfl (fun stopped => nomatch stopped) listed stored with
  | settled fine =>
    exact ⟨_, pass_of_not_outdated sound.keyed request found (plain ▸ fine) setting.policy now⟩
  | unlisted member => cases member
  | starting delivers => cases delivers
  | queued member =>
    have empty : (System.ofState state s).waiting = [] := handled
    rw [empty] at member
    cases member
  | published member _ =>
    have none_left : s.published.drop state.position = [] := by
      rw [read, List.drop_length]
    rw [System.ofState, none_left] at member
    cases member
  | forwarding delivering => cases delivering
  | passing under => cases under

/-- A watch that takes turns has done all its work if it comes to rest with its queue empty and the
feed read. -/
theorem settle_leaves_none_outdated {store : Memory} (keyed : store.Keyed)
    (now : Instant) (patience : Nat) {state : State} {s : Memory}
    (rested : settle setting.limits setting.watched feed respond (pass setting.policy now) patience
      { State.start store.published.length with
        queue := enqueued store setting.watched ⟨false, []⟩ } store = (.idle state, s))
    (handled : state.queue.waiting = []) (read : state.position = s.published.length)
    {request : Request} (listed : request.partition ∈ setting.watched)
    (plain : request.nameSpace = none) {entry : CatalogEntry}
    (found : s.getEntry request.partition request.name = .ok entry) (later : Instant) :
    ∃ invalid, s.pass setting.policy later request = (.ok (.unchanged invalid), s) := by
  let first : State :=
    { State.start store.published.length with queue := enqueued store setting.watched ⟨false, []⟩ }
  have near : store.published.length ≤ first.position + Feed.capacity := Nat.le_add_right _ _
  have ends := settle_reaches setting now patience keyed (enqueued_closed store setting.watched [])
    (Nat.le_refl store.published.length) near
  rw [rested] at ends
  exact settled_at_rest keyed ((start_reaches setting store).trans ends) handled read listed plain
    found later

end ApiCatalog.Watch
