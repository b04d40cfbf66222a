import Mathlib.Algebra.Order.BigOperators.Group.List
import Mathlib.Algebra.Order.Group.Nat
import ApiCatalog.Proofs.Program
import ApiCatalog.Proofs.Reconcile.Settled
import ApiCatalog.Proofs.Watch.Delivery

/-!
# What the parts of a watch cost

As long as only a watch itself writes, the number of entries in the store and the number of
references of each stay within bounds. So a pass has a bounded number of steps (`takes_reconcile`),
and an event a bounded number of listings and of requests that come of it (`takes_requests`). What
the forwarder and the worker have begun, they owe the rest of, which becomes less with each of their
moves (`Forwarder.Owes`, `Worker.Owes`).
-/
namespace ApiCatalog

open Program

/-- An entry has no namespace, and so has no event about it that a store publishes. -/
def Event.Plain (e : Event) : Prop :=
  e.change = .entryChanged ∨ e.change = .entryDeleted → e.key.nameSpace = none

namespace Memory

section Plain

theorem Mutation.plain_news (m : Mutation) (s : Memory) :
    ∃ news, (m.apply s).published = s.published ++ news ∧ ∀ e ∈ news, e.Plain := by
  have none_new {t : Memory} (same : t.published = s.published) :
      ∃ news, t.published = s.published ++ news ∧ ∀ e ∈ news, e.Plain :=
    ⟨[], by rw [same, List.append_nil], fun e inside => nomatch inside⟩
  have one_new {t : Memory} {e : Event} (added : t.published = s.published ++ [e])
      (plain : e.Plain) : ∃ news, t.published = s.published ++ news ∧ ∀ e ∈ news, e.Plain :=
    ⟨[e], added, fun other inside => List.mem_singleton.1 inside ▸ plain⟩
  cases m with
  | putEntry partition entry => exact one_new rfl fun _ => rfl
  | deleteEntry partition name =>
    simp only [apply, Memory.deleteEntry]
    split
    · exact one_new rfl fun _ => rfl
    · exact none_new rfl
  | putExport partition e => exact one_new rfl fun other => by simp at other
  | deleteExport key =>
    simp only [apply, Memory.deleteExport]
    split
    · exact one_new rfl fun other => by simp at other
    · exact none_new rfl
  | putBinding partition binding => exact one_new rfl fun _ => rfl
  | setPhase partition name phase =>
    simp only [apply, Memory.setPhase]
    split
    · exact none_new rfl
    · exact one_new rfl fun _ => rfl
  | createBinding suffix partition binding =>
    simp only [apply]
    rcases createBinding_cases s suffix partition binding with ⟨e, refused⟩ | ⟨created, done, -⟩
    · rw [refused]
      exact none_new rfl
    · rw [done]
      exact one_new rfl fun _ => rfl
  | updateEntryStatus partition entry =>
    simp only [apply]
    rcases updateEntryStatus_store s partition entry with refused | ⟨stored, -, written⟩
    · rw [refused]
      exact none_new rfl
    · rw [written]
      exact one_new rfl fun _ => rfl

/-- Every event about an entry that a store has published is about one without namespace. -/
theorem Reachable.plain {s : Memory} (reachable : s.Reachable) : ∀ e ∈ s.published, e.Plain := by
  induction reachable with
  | opened snapshot => exact fun e inside => nomatch inside
  | @operated s op _ ih =>
    cases op with
    | mutate m =>
      obtain ⟨news, published, plain⟩ := m.plain_news s
      rw [Operation.apply, published]
      exact List.forall_mem_append.2 ⟨ih, plain⟩
    | failExport key e => exact ih
    | clearFault key => exact ih
  | statusUndone partition previous _ ih =>
    refine List.forall_mem_append.2 ⟨ih, List.forall_mem_singleton.2 fun _ => rfl⟩
  | @bindingUndone s partition name _ ih =>
    unfold undoBinding
    dsimp only
    split
    · exact List.forall_mem_append.2 ⟨ih, List.forall_mem_singleton.2 fun _ => rfl⟩
    · exact ih

end Plain

/-- From `s` to `s'` statuses were written, with one event each. -/
structure Writes (s s' : Memory) (news : List Event) : Prop where
  published : s'.published = s.published ++ news
  statusWrites : s'.statusWrites = s.statusWrites + news.length
  plain : ∀ e ∈ news, e.Plain

theorem Writes.refl (s : Memory) : Writes s s [] :=
  ⟨(List.append_nil _).symm, rfl, fun _ inside => nomatch inside⟩

theorem Writes.trans {s s' s'' : Memory} {news more : List Event} (first : Writes s s' news)
    (second : Writes s' s'' more) : Writes s s'' (news ++ more) where
  published := by rw [second.published, first.published, List.append_assoc]
  statusWrites := by
    rw [second.statusWrites, first.statusWrites, List.length_append, Nat.add_assoc]
  plain := List.forall_mem_append.2 ⟨first.plain, second.plain⟩

theorem perform_writes (s : Memory) (step : Pass.Step) :
    ∃ news, Writes s (perform step s).2 news := by
  rcases perform_store s step with same | bumped | ⟨key, entry, status, space, -, written⟩
  · rw [same]
    exact ⟨[], .refl s⟩
  · rw [bumped]
    exact ⟨[], (Writes.refl s).published, rfl, (Writes.refl s).plain⟩
  · rw [written]
    exact ⟨_, rfl, rfl, List.forall_mem_singleton.2 fun _ => space⟩

theorem run_writes {α : Type} (program : Program Pass.Step.Answer α) (s : Memory) :
    ∃ news, Writes s (program.run perform s).2 news := by
  induction program generalizing s with
  | done result => exact ⟨[], .refl s⟩
  | ask step next ih =>
    obtain ⟨news, first⟩ := perform_writes s step
    obtain ⟨more, rest⟩ := ih (perform step s).1 (perform step s).2
    exact ⟨_, first.trans rest⟩

/-- There are at most `n` entries, with at most `r` references each. -/
structure Sized (n r : Nat) (s : Memory) : Prop where
  entries : s.entries.rows.length ≤ n
  references : ∀ {key entry}, s.entries.get? key = some entry → entry.exports.length ≤ r

theorem exists_sized (s : Memory) : ∃ n r, s.Sized n r := by
  refine ⟨_, (s.entries.rows.map fun row => row.2.exports.length).sum, Nat.le_refl _, ?_⟩
  intro key entry stored
  exact List.le_sum_of_mem (List.mem_map.2 ⟨_, Table.mem_rows_iff.2 stored, rfl⟩)

section Sizes

variable {s : Memory} {n r : Nat}

theorem Sized.withStatus (sized : s.Sized n r) {key : ObjectKey} {entry : CatalogEntry}
    (stored : s.entries.get? key = some entry) (status : EntryStatus) :
    (s.withStatus key entry status).Sized n r := by
  refine ⟨?_, fun {other found} found' => ?_⟩
  · obtain ⟨before, after, rows, replaced⟩ := Table.rows_insert_of_get? stored
    have bound := sized.entries
    rw [rows] at bound
    change (s.entries.insert key _).rows.length ≤ n
    rw [replaced]
    simpa using bound
  · rcases Table.get?_insert_cases found' with ⟨-, rfl⟩ | before
    · exact (sized.references stored : entry.exports.length ≤ r)
    · exact sized.references before

theorem Sized.perform (sized : s.Sized n r) (step : Pass.Step) : (perform step s).2.Sized n r := by
  rcases perform_store s step with same | bumped | ⟨key, entry, status, -, stored, written⟩
  · rw [same]
    exact sized
  · rw [bumped]
    exact ⟨sized.entries, sized.references⟩
  · rw [written]
    exact sized.withStatus stored status

end Sizes
end Memory

namespace Watch

open Memory Trigger

variable {n r : Nat}

/-- The answer to a call in a store with at most `n` entries. -/
def Lists (n : Nat) : (call : Call) → call.Answer → Prop
  | .listEntries _, answer => ∀ entries, answer = .ok entries → entries.length ≤ n
  | _, _ => True

/-- The answer to a step of a pass in a store whose entries have at most `r` references each. -/
def Fetches (r : Nat) : (step : Pass.Step) → step.Answer → Prop
  | .fetch .., answer => ∀ entry, answer = .ok entry → entry.exports.length ≤ r
  | _, _ => True

theorem lists_respond {s : Memory} (sized : s.Sized n r) (call : Call) :
    Lists n call (respond call s).1 := by
  cases call with
  | listEntries partition =>
    rintro entries listed
    cases listed
    have all : (s.listEntries partition).length ≤ s.entries.rows.length := by
      rw [listEntries, Table.values, List.length_map]
      exact List.length_filter_le _ _
    exact Nat.le_trans all sized.entries
  | _ => exact trivial

theorem fetches_perform {s : Memory} (sized : s.Sized n r) (step : Pass.Step) :
    Fetches r step (perform step s).1 := by
  cases step with
  | fetch partition name => exact fun entry found => sized.references (getEntry_eq_ok.1 found)
  | lookup reference nameSpace => exact trivial
  | commit partition entry => exact trivial

/-- At most so many requests, all without namespace. -/
def Sends (most : Nat) (requests : List Request) : Prop :=
  requests.length ≤ most ∧ ∀ request ∈ requests, request.nameSpace = none

theorem takes_dependents (n : Nat) (key : ObjectKey) (partitions : List Partition) :
    (dependents key partitions).Takes (Lists n) (Sends (partitions.length * n))
      partitions.length := by
  induction partitions with
  | nil => exact ⟨Nat.zero_le _, fun request inside => nomatch inside⟩
  | cons partition rest ih =>
    refine ⟨rest.length, rfl, fun answer fits => ?_⟩
    refine ih.bind_pure fun others few => ?_
    refine ⟨?_, List.forall_mem_append.2 ⟨?_, few.2⟩⟩
    · rw [List.length_append, List.length_cons, Nat.succ_mul, Nat.add_comm]
      refine Nat.add_le_add few.1 ?_
      cases answer with
      | ok entries =>
        rw [List.length_map]
        exact Nat.le_trans (List.length_filter_le _ _) (fits entries rfl)
      | error e => exact Nat.zero_le n
    · cases answer with
      | ok entries => exact List.forall_mem_map.2 fun entry _ => rfl
      | error e => exact fun request inside => nomatch inside

theorem takes_requests (n : Nat) (watched : List Partition) {e : Event} (plain : e.Plain) :
    (requests watched e).Takes (Lists n) (Sends (watched.length * n + 1)) watched.length := by
  have own (about : e.change = .entryChanged ∨ e.change = .entryDeleted) :
      Sends (watched.length * n + 1)
        (if watched.isEmpty || watched.contains e.key.partition then [.ofKey e.key] else []) := by
    split
    · exact ⟨Nat.le_add_left _ _, List.forall_mem_singleton.2 (plain about)⟩
    · exact ⟨Nat.zero_le _, fun request inside => nomatch inside⟩
  unfold requests
  split
  next changed => exact own (.inl changed)
  next deleted => exact own (.inr deleted)
  · exact (takes_dependents n e.key watched).weaken
      fun requests few => ⟨Nat.le_succ_of_le few.1, few.2⟩
  · exact ⟨Nat.zero_le _, fun request inside => nomatch inside⟩

theorem takes_resolve (r : Nat) (nameSpace : Option String) (references : List ExportReference) :
    (Pass.resolve nameSpace references).Takes (Fetches r) (fun _ => True) references.length := by
  induction references with
  | nil => exact trivial
  | cons reference rest ih =>
    exact ⟨rest.length, rfl, fun answer _ => ih.bind_pure fun others _ => trivial⟩

theorem takes_commit (r : Nat) (request : Request) (entry : CatalogEntry) (d : Derivation) :
    (Pass.commit request entry d).Takes (Fetches r) (fun _ => True) 1 := by
  unfold Pass.commit
  split
  · exact trivial
  · refine ⟨0, rfl, fun answer _ => ?_⟩
    cases answer with
    | ok stored => exact trivial
    | error e => exact trivial

/-- A pass fetches, looks up each reference, and commits at most once. -/
theorem takes_reconcile (r : Nat) (policy : SchemaPolicy) (now : Instant) (request : Request) :
    (reconcile policy now request).Takes (Fetches r) (fun _ => True) (r + 2) := by
  refine ⟨r + 1, rfl, fun answer fits => ?_⟩
  cases answer with
  | error e => exact trivial
  | ok entry =>
    have derived : (Pass.derive entry request.nameSpace policy now).Takes (Fetches r)
        (fun _ => True) entry.exports.length :=
      (takes_resolve r request.nameSpace entry.exports).bind_pure fun _ _ => trivial
    have committed : (Pass.derive entry request.nameSpace policy now >>=
        Pass.commit request entry).Takes (Fetches r) (fun _ => True) (entry.exports.length + 1) :=
      derived.bind fun d _ => takes_commit r request entry d
    exact committed.mono (Nat.add_le_add_right (fits entry rfl) 1)

section Costs

/-- A request is taken, its pass makes at most `r + 2` steps, and the pass ends. -/
def passCost (r : Nat) : Nat := r + 4

/-- An event is received, the watched partitions are listed, what comes of it is sent and worked
off, and the forwarder listens again. -/
def eventCost (watched : List Partition) (n r : Nat) : Nat :=
  watched.length + (watched.length * n + 1) * (passCost r + 1) + 2

/-- What the forwarder still causes until it listens again. -/
inductive Forwarder.Owes (n r : Nat) : Forwarder → Nat → Prop
  | listening : Owes n r .listening 0
  | delivering {e : Event} {sender : Sender} {asks sends : Nat} : sender.Asks IsListing →
      sender.Takes (Lists n) (Sends sends) asks →
      Owes n r (.delivering e sender) (asks + sends * (passCost r + 1) + 1)

/-- What the worker still does until it is idle. A pass under way does the rest of what a pass
without a break would have done. -/
inductive Worker.Owes (policy : SchemaPolicy) (s : Memory) (r : Nat) : Worker → Nat → Prop
  | idle (tally : Loop.Tally) : Owes policy s r (.idle tally) 0
  | passing {tally : Loop.Tally} {request : Request}
      {rest : Program Pass.Step.Answer (Except PassError Outcome)} {before : Memory}
      {now : Instant} {asks : Nat} : before.Keyed → request.nameSpace = none →
      rest.run perform s = before.pass policy now request →
      rest.Takes (Fetches r) (fun _ => True) asks →
      Owes policy s r (.passing tally request rest) (asks + 1)

variable {e : Event}

theorem owes_received (n r : Nat) (watched : List Partition) (plain : e.Plain) :
    ∃ costs, costs + 1 = eventCost watched n r ∧
      Forwarder.Owes n r (.delivering e (requests watched e)) costs :=
  ⟨_, rfl, .delivering (asks_requests watched e) (takes_requests n watched plain)⟩

theorem Forwarder.Owes.asked {call : Call} {next : call.Answer → Sender} {costs : Nat}
    (owes : Forwarder.Owes n r (.delivering e (.ask call next)) costs) {answer : call.Answer}
    (fits : Lists n call answer) :
    ∃ fewer, costs = fewer + 1 ∧ Forwarder.Owes n r (.delivering e (next answer)) fewer := by
  cases owes with
  | @delivering _ _ asks sends listing takes =>
    obtain ⟨fewer, rfl, answered⟩ := takes
    exact ⟨_, by omega, .delivering (listing.2 answer) (answered answer fits)⟩

/-- What is sent is one request less to be sent, and one pass more that waits. -/
theorem Forwarder.Owes.sent {request : Request} {others : List Request} {costs : Nat}
    (owes : Forwarder.Owes n r (.delivering e (.done (request :: others))) costs) :
    request.nameSpace = none ∧ ∃ fewer, costs = fewer + passCost r + 1 ∧
      Forwarder.Owes n r (.delivering e (.done others)) fewer := by
  cases owes with
  | @delivering _ _ asks sends listing takes =>
    obtain ⟨few, plain⟩ := takes
    obtain ⟨here, plain⟩ := List.forall_mem_cons.1 plain
    obtain ⟨fewer, rfl⟩ : ∃ fewer, sends = fewer + 1 :=
      Nat.exists_eq_add_of_le' (Nat.le_trans (Nat.le_add_left 1 others.length) few)
    have left : Sends fewer others := ⟨Nat.le_of_succ_le_succ few, plain⟩
    exact ⟨here, asks + fewer * (passCost r + 1) + 1, by rw [Nat.succ_mul]; omega,
      .delivering trivial left⟩

theorem Forwarder.Owes.delivered {costs : Nat}
    (owes : Forwarder.Owes n r (.delivering e (.done [])) costs) : 0 < costs := by
  cases owes
  exact Nat.succ_pos _

variable {policy : SchemaPolicy} {s : Memory} {tally : Loop.Tally} {request : Request}

theorem owes_taken (keyed : s.Keyed) (plain : request.nameSpace = none) (now : Instant) :
    ∃ costs, costs + 1 = passCost r ∧
      Worker.Owes policy s r (.passing tally request (reconcile policy now request)) costs :=
  ⟨_, rfl, .passing keyed plain rfl (takes_reconcile r policy now request)⟩

theorem Worker.Owes.performed {step : Pass.Step}
    {next : step.Answer → Program Pass.Step.Answer (Except PassError Outcome)} {costs : Nat}
    (owes : Worker.Owes policy s r (.passing tally request (.ask step next)) costs)
    (sized : s.Sized n r) :
    ∃ fewer, costs = fewer + 1 ∧ Worker.Owes policy (perform step s).2 r
      (.passing tally request (next (perform step s).1)) fewer := by
  cases owes with
  | passing keyed plain same takes =>
    obtain ⟨fewer, rfl, answered⟩ := takes
    exact ⟨_, rfl, .passing keyed plain same (answered _ (fetches_perform sized step))⟩

/-- The pass under way ends as one without a break. -/
theorem Worker.Owes.effect {rest : Program Pass.Step.Answer (Except PassError Outcome)}
    {costs : Nat} (owes : Worker.Owes policy s r (.passing tally request rest) costs) :
    0 < costs ∧ ∃ before, Effect before request.entryKey (rest.run perform s).1
      (rest.run perform s).2 := by
  cases owes with
  | @passing _ _ _ before now asks keyed plain same takes =>
    refine ⟨Nat.succ_pos asks, before, ?_⟩
    rw [same]
    exact pass_effect keyed plain policy now

end Costs

end Watch
end ApiCatalog
