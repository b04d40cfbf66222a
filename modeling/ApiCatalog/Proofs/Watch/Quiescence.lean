import ApiCatalog.Proofs.Watch.Schedule
import ApiCatalog.Proofs.Watch.Turn

/-!
# A watch comes to rest

Each status write is an event, each event asks for a pass, and a pass may write. Yet a watch that is
left alone comes to rest: no entry is written twice (`Budgeted.writes_apart`), a pass over an entry
that was written finds nothing to do (`Budgeted.passes_settled`), and at rest whatever was requested
is up to date (`Budgeted.requested_upToDate`). Main statement: `watch_quiesces`.
-/
namespace ApiCatalog.Watch

open Memory Program Trigger

section Writing

variable {setting : Setting} {n r budget : Nat} {sys sys' : System} {first : Memory} {key : ObjectKey}
  {request : Request}

/-- Since `first`, and with the end of the pass under way, each write was over another entry, which
is up to date. -/
def WritesOnce (first : Memory) (sys : System) : Prop :=
  ∃ news, Writes first sys.ahead news ∧ news.Nodup ∧
    ∀ e ∈ news, e.change = .entryChanged ∧ sys.ahead.UpToDate e.key

theorem Budgeted.writesOnce (budgeted : Budgeted setting n r sys budget)
    (turn : Turn setting sys sys') (once : WritesOnce first sys) : WritesOnce first sys' := by
  rcases budgeted.effect turn with ⟨same, -⟩ | ⟨request, result, -, -, effect⟩
  · rw [WritesOnce, same]
    exact once
  · obtain ⟨news, writes, apart, fine⟩ := once
    have still : ∀ e ∈ news, e.change = .entryChanged ∧ sys'.ahead.UpToDate e.key :=
      fun e inside => ⟨(fine e inside).1, effect.keeps_upToDate (fine e inside).2⟩
    rcases effect.written with same | ⟨outdated, entry, status, written⟩
    · exact ⟨news, same ▸ writes, apart, still⟩
    · have one : Writes sys.ahead sys'.ahead [⟨.entryChanged, request.entryKey⟩] := by
        rw [written]
        exact ⟨rfl, rfl, List.forall_mem_singleton.2 fun _ => rfl⟩
      refine ⟨_, writes.trans one, ?_, List.forall_mem_append.2
        ⟨still, List.forall_mem_singleton.2 ⟨rfl, effect.upToDate⟩⟩⟩
      -- An entry with an event among the news was up to date, and so would not have been written.
      refine List.nodup_append.2 ⟨apart, List.nodup_cons.2 ⟨List.not_mem_nil, .nil⟩, ?_⟩
      rintro e inside _ new rfl
      cases List.mem_singleton.1 new
      exact outdated (fine _ inside).2

/-- The request is still to be handled, or its entry is up to date. -/
def Awaited (request : Request) (sys : System) : Prop :=
  request ∈ sys.waiting ∨ sys.ahead.UpToDate request.entryKey

theorem Budgeted.awaited (budgeted : Budgeted setting n r sys budget)
    (turn : Turn setting sys sys') (awaited : Awaited request sys) : Awaited request sys' := by
  rcases budgeted.effect turn with ⟨same, -, kept⟩ | ⟨taken, result, waiting, -, effect⟩
  · rw [Awaited, same]
    exact awaited.imp_left fun inside => kept inside
  · rcases awaited with inside | fine
    · rw [waiting] at inside
      rcases List.mem_cons.1 inside with rfl | inside
      · exact .inr effect.upToDate
      · exact .inl inside
    · exact .inr (effect.keeps_upToDate fine)

/-- The entry is stored and up to date, and the pass under way changes nothing of it. -/
def Calm (key : ObjectKey) (sys : System) : Prop :=
  sys.ahead.Settled key ∧ ∀ request result, sys.ending = some (request, result) →
    request.entryKey = key → ∃ invalid, result = .ok (.unchanged invalid)

theorem Budgeted.calm (budgeted : Budgeted setting n r sys budget)
    (turn : Turn setting sys sys') (calm : Calm key sys) : Calm key sys' := by
  rcases budgeted.effect turn with ⟨same, ending, -⟩ | ⟨taken, result, -, ending, effect⟩
  · refine ⟨same ▸ calm.1, fun request result under => ?_⟩
    rcases ending with same | none_left
    · exact calm.2 request result (same ▸ under)
    · cases none_left.symm.trans under
  · refine ⟨effect.keeps_settled calm.1, fun request result under about => ?_⟩
    cases ending.symm.trans under
    exact effect.of_settled (about ▸ calm.1)

theorem System.ending_of_ended {move : Move} {result : Except PassError Outcome}
    (ended : sys.ended move = some (request, result)) : sys.ending = some (request, result) := by
  unfold System.ended at ended
  unfold System.ending
  split at ended
  · split at ended
    next passing =>
      cases ended
      rw [passing]
      rfl
    · cases ended
  · cases ended

theorem Budgeted.effect_ending (budgeted : Budgeted setting n r sys budget)
    {result : Except PassError Outcome} (ending : sys.ending = some (request, result)) :
    ∃ before, Effect before request.entryKey result sys.ahead := by
  obtain ⟨f, w, -, owes, -⟩ := budgeted.costs
  unfold System.ending at ending
  unfold System.ahead
  split at ending
  next tally other rest passing =>
    cases ending
    rw [passing] at owes
    exact owes.effect.2
  · cases ending

/-- A pass that writes leaves its entry calm. -/
theorem Budgeted.calm_of_updated (budgeted : Budgeted setting n r sys budget) {version : Version}
    {invalid : List String} (turn : Turn setting sys sys')
    (ending : sys.ending = some (request, .ok (.statusUpdated version invalid)))
    (none_left : sys'.ending = none) : Calm request.entryKey sys' := by
  obtain ⟨before, written⟩ := budgeted.effect_ending ending
  rcases budgeted.effect turn with ⟨same, -⟩ | ⟨taken, result, -, under, -⟩
  · exact ⟨same ▸ written.settled_of_updated, fun _ _ under => nomatch none_left.symm.trans under⟩
  · cases none_left.symm.trans under

theorem Calm.passes (budgeted : Budgeted setting n r sys budget) {moves : List Move}
    (works : Works setting sys moves) (calm : Calm key sys) :
    ∀ pass ∈ passes setting sys moves, pass.1.entryKey = key →
      ∃ invalid, pass.2 = .ok (.unchanged invalid) := by
  induction moves generalizing sys budget with
  | nil => exact fun pass inside => nomatch inside
  | cons move rest ih =>
    obtain ⟨busy, works⟩ := works
    obtain ⟨fewer, -, after⟩ := budgeted.step busy
    refine List.forall_mem_append.2 ⟨fun pass inside => ?_,
      ih after works (budgeted.calm (budgeted.turn busy) calm)⟩
    exact calm.2 _ _ (System.ending_of_ended (Option.mem_toList.1 inside))

/-- After a pass that wrote, a later one over the same entry has nothing to write. -/
def SettledBy (earlier later : Request × Except PassError Outcome) : Prop :=
  earlier.1.entryKey = later.1.entryKey → ∀ version invalid,
    earlier.2 = .ok (.statusUpdated version invalid) →
      ∃ invalid, later.2 = .ok (.unchanged invalid)

theorem System.ending_step {move : Move} {pass : Request × Except PassError Outcome}
    (ended : sys.ended move = some pass) : (sys.step setting move).ending = none := by
  obtain ⟨store, position, missed, forwarder, unlisted, starter, waiting, worker⟩ := sys
  cases move with
  | work now =>
    cases worker with
    | passing tally request rest =>
      cases rest with
      | done result =>
        simp only [System.step, System.work]
        cases tally.rule setting.limits result with
        | proceed tally => rfl
        | finish result => rfl
      | ask step next => cases ended
    | idle tally => cases ended
    | stopped => cases ended
  | _ => cases ended

theorem Budgeted.passes_settled (budgeted : Budgeted setting n r sys budget) {moves : List Move}
    (works : Works setting sys moves) : (passes setting sys moves).Pairwise SettledBy := by
  induction moves generalizing sys budget with
  | nil => exact .nil
  | cons move rest ih =>
    obtain ⟨busy, works⟩ := works
    obtain ⟨fewer, -, after⟩ := budgeted.step busy
    have later := ih after works
    unfold passes
    cases ended : sys.ended move with
    | none => exact later
    | some pass =>
      refine List.pairwise_cons.2 ⟨fun other inside same version invalid updated => ?_, later⟩
      have ending := System.ending_of_ended ended
      rw [updated] at ending
      have calm := budgeted.calm_of_updated (budgeted.turn busy) ending (System.ending_step ended)
      exact calm.passes after works other inside same.symm

end Writing

section Resting

variable {setting : Setting} {n r budget : Nat} {sys : System}

/-- A part that has nothing to do leaves everything as it is. -/
theorem System.step_of_idle {move : Move} (own : move = .forward ∨ ∃ now, move = .work now)
    (idle : sys.busy move = false) : sys.step setting move = sys := by
  obtain ⟨store, position, missed, forwarder, unlisted, starter, waiting, worker⟩ := sys
  rcases own with rfl | ⟨now, rfl⟩
  · cases forwarder with
    | listening =>
      have read : store.published.length ≤ position := Nat.le_of_not_lt (of_decide_eq_false idle)
      simp only [System.step, System.forward, Feed.receive_of_le read]
    | delivering e sender => cases idle
  · cases worker with
    | idle tally =>
      cases waiting with
      | nil => rfl
      | cons request others => cases idle
    | passing tally request rest => cases idle
    | stopped => rfl

/-- Moves that are made in two parts. -/
theorem works_append {before after : List Move} :
    Works setting sys (before ++ after) ↔
      Works setting sys before ∧ Works setting (sys.run setting before) after := by
  induction before generalizing sys with
  | nil => exact (and_iff_right trivial).symm
  | cons move rest ih => exact (and_congr_right fun _ => ih).trans and_assoc.symm

/-- A watch that nobody stops does not rest before everything is read and handled. -/
theorem Budgeted.at_rest (budgeted : Budgeted setting n r sys budget) (rest : sys.AtRest) :
    sys.forwarder = .listening ∧ sys.position = sys.store.published.length ∧
      sys.waiting = [] ∧ ∃ tally, sys.worker = .idle tally := by
  obtain ⟨store, position, missed, forwarder, unlisted, starter, waiting, worker⟩ := sys
  have forward := rest .forward
  have work := rest (.work .epoch)
  obtain ⟨f, w, -, owes, -⟩ := budgeted.costs
  cases forwarder with
  | delivering e sender => cases forward
  | listening =>
    cases owes with
    | passing => cases work
    | idle tally =>
      have read : store.published.length ≤ position := Nat.le_of_not_lt (of_decide_eq_false forward)
      refine ⟨rfl, Nat.le_antisymm budgeted.position_le read, ?_, tally, rfl⟩
      cases waiting with
      | nil => rfl
      | cons request others => cases work

theorem System.ahead_of_idle {tally : Loop.Tally} (idle : sys.worker = .idle tally) :
    sys.ahead = sys.store := by
  rw [System.ahead, idle]

/-- What is up to date is left as it is by one more pass. -/
theorem pass_of_upToDate {s : Memory} (keyed : s.Keyed) {request : Request}
    (spaceless : request.nameSpace = none) (fine : s.UpToDate request.entryKey)
    {entry : CatalogEntry} (found : s.getEntry request.partition request.name = .ok entry)
    (policy : SchemaPolicy) (now : Instant) :
    ∃ invalid, s.pass policy now request = (.ok (.unchanged invalid), s) := by
  have current : ¬Outdated s request.nameSpace entry := by
    rw [spaceless]
    exact fine (getEntry_eq_ok.1 found)
  exact ⟨_, pass_of_not_outdated keyed request found current policy now⟩

/-- Whatever is queued without namespace and whatever is in the feed, there is some budget. -/
theorem exists_budget (setting : Setting) (state : State) {store : Memory} (keyed : store.Keyed)
    (spaceless : ∀ request ∈ state.queue.waiting, request.nameSpace = none)
    (plain : ∀ e ∈ store.published.drop state.position, e.Plain)
    (position_le : state.position ≤ store.published.length) :
    ∃ n r budget, Budgeted setting n r (.ofState state store) budget := by
  obtain ⟨n, r, sized⟩ := store.exists_sized
  exact ⟨n, r, _, keyed, sized, spaceless, plain, position_le, 0, 0, .listening, .idle _,
    Nat.le_refl _⟩

/-- From a state in which the worker is idle, no entry is written twice. -/
theorem Budgeted.writes_apart (budgeted : Budgeted setting n r sys budget) {moves : List Move}
    (works : Works setting sys moves) {tally : Loop.Tally} (idle : sys.worker = .idle tally) :
    ∃ news, Writes sys.store (sys.run setting moves).store news ∧ news.Nodup ∧
      ∀ e ∈ news, e.change = .entryChanged := by
  have grows {a b : System} {left : Nat} (_ : Budgeted setting n r a left) (turn : Turn setting a b)
      (sofar : ∃ news, Writes sys.store a.store news) : ∃ news, Writes sys.store b.store news := by
    obtain ⟨news, sofar⟩ := sofar
    obtain ⟨more, writes⟩ := turn.writes
    exact ⟨_, sofar.trans writes⟩
  obtain ⟨-, -, -, news, writes⟩ := budgeted.run grows works ⟨[], .refl _⟩
  have none_yet : WritesOnce sys.store sys :=
    ⟨[], (System.ahead_of_idle idle).symm ▸ .refl _, .nil, fun _ inside => nomatch inside⟩
  obtain ⟨-, -, -, all, written, apart, about⟩ :=
    budgeted.run Budgeted.writesOnce works none_yet
  -- What is published so far is a part of what will be when the pass under way has ended.
  obtain ⟨more, rest⟩ := (sys.run setting moves).writes_ahead
  have split : news ++ more = all :=
    List.append_cancel_left ((writes.trans rest).published.symm.trans written.published)
  have part : news.Sublist all := split ▸ List.sublist_append_left news more
  exact ⟨news, writes, apart.sublist part, fun e inside => (about e (part.subset inside)).1⟩

/-- At rest, what was requested at any time is up to date. -/
theorem Budgeted.requested_upToDate (budgeted : Budgeted setting n r sys budget)
    {before after : List Move} (works : Works setting sys (before ++ after)) {request : Request}
    (requested : request ∈ (sys.run setting before).waiting)
    (rest : (sys.run setting (before ++ after)).AtRest) :
    request.nameSpace = none ∧
      (sys.run setting (before ++ after)).store.UpToDate request.entryKey := by
  obtain ⟨first, second⟩ := works_append.1 works
  have resumed : sys.run setting (before ++ after) = (sys.run setting before).run setting after :=
    List.foldl_append
  rw [resumed] at rest ⊢
  obtain ⟨left, -, between, -⟩ := budgeted.run (P := fun _ => True) (fun _ _ => id) first trivial
  obtain ⟨_, -, ended, awaited⟩ := between.run Budgeted.awaited second (.inl requested)
  obtain ⟨-, -, handled, tally, idle⟩ := ended.at_rest rest
  refine ⟨between.waiting request requested, System.ahead_of_idle idle ▸ ?_⟩
  refine awaited.resolve_left fun waiting => ?_
  rw [handled] at waiting
  cases waiting

end Resting

/-- Left alone with any store, any queue of requests without namespace and any undelivered events
(about entries without namespace, as all are that a store publishes: `Reachable.plain`), a watch
goes on for a bounded number of moves, in whatever order its forwarder and its worker make them.
Each status write on the way is over another entry, and once an entry was written every later pass
over it has nothing to write. At rest everything is read and handled and stays as it is, and one
more pass over an entry that was requested at any time would leave the store as it is. -/
theorem watch_quiesces (setting : Setting) {store : Memory} (reachable : store.Reachable)
    {waiting : List Request} (spaceless : ∀ request ∈ waiting, request.nameSpace = none)
    (read : List Event) {undelivered : List Event} (plain : ∀ e ∈ undelivered, e.Plain)
    (tally : Loop.Tally) :
    let start := System.ofState ⟨⟨false, waiting⟩, read.length, tally⟩
      { store with published := read ++ undelivered }
    ∃ most, ∀ moves, Works setting start moves →
      let sys := start.run setting moves
      moves.length ≤ most ∧
      (∃ news, Writes start.store sys.store news ∧ news.Nodup ∧
        ∀ e ∈ news, e.change = .entryChanged) ∧
      (passes setting start moves).Pairwise SettledBy ∧
      (sys.AtRest → sys.step setting .forward = sys ∧ (∀ now, sys.step setting (.work now) = sys) ∧
        sys.position = sys.store.published.length ∧ sys.waiting = [] ∧
        (∃ tally, sys.worker = .idle tally) ∧
        ∀ before, before <+: moves → ∀ request ∈ (start.run setting before).waiting, ∀ entry,
          sys.store.getEntry request.partition request.name = .ok entry → ∀ now, ∃ invalid,
            sys.store.pass setting.policy now request =
              (.ok (.unchanged invalid), sys.store)) := by
  intro start
  have keyed : start.store.Keyed :=
    ⟨reachable.keyed.entries, reachable.keyed.exports, reachable.keyed.bindings⟩
  have unread : ∀ e ∈ start.store.published.drop read.length, e.Plain := by
    change ∀ e ∈ (read ++ undelivered).drop read.length, e.Plain
    rw [List.drop_left]
    exact plain
  have position_le : read.length ≤ (read ++ undelivered).length := by simp
  obtain ⟨n, r, budget, budgeted⟩ :=
    exists_budget setting ⟨⟨false, waiting⟩, read.length, tally⟩ keyed spaceless unread position_le
  refine ⟨budget, fun moves works => ?_⟩
  obtain ⟨left, spent, ended, -⟩ := budgeted.run (P := fun _ => True) (fun _ _ => id) works trivial
  refine ⟨by omega, budgeted.writes_apart works rfl, budgeted.passes_settled works, fun rest => ?_⟩
  obtain ⟨-, all_read, handled, idle⟩ := ended.at_rest rest
  refine ⟨System.step_of_idle (.inl rfl) (rest .forward),
    fun now => System.step_of_idle (.inr ⟨now, rfl⟩) (rest (.work now)),
    all_read, handled, idle, ?_⟩
  rintro before ⟨after, rfl⟩ request requested entry found now
  obtain ⟨spaceless, fine⟩ := budgeted.requested_upToDate works requested rest
  exact pass_of_upToDate ended.keyed spaceless fine found setting.policy now

namespace Sample

def widgetsChanged : Event := ⟨.exportChanged, ⟨.root, none, "widgets"⟩⟩

theorem plain : widgetsChanged.Plain := fun _ => rfl

/-- The entry is requested, and a change of the export that it refers to is not delivered yet. -/
def undelivered : System :=
  .ofState ⟨⟨false, [Memory.Sample.request]⟩, 0, .zero⟩
    { Memory.Sample.store with published := [widgetsChanged] }

/-- A pass that writes, the delivery of both events, and a pass for each. -/
def toRest : List Move :=
  List.replicate 6 (.work .epoch) ++ List.replicate 7 .forward ++
    List.replicate 10 (.work .epoch)

def rested : System := undelivered.run setting toRest

end Sample

/-- The first pass writes; its event and the one that was there lead to a pass each. -/
theorem watch_quiesces_sample :
    Works Sample.setting Sample.undelivered Sample.toRest ∧ Sample.rested.AtRest ∧
      (passes Sample.setting Sample.undelivered Sample.toRest).length = 3 ∧
      (passes Sample.setting Sample.undelivered Sample.toRest).Pairwise SettledBy ∧
      ∃ invalid, Sample.rested.store.pass .drop .epoch Memory.Sample.request =
        (.ok (.unchanged invalid), Sample.rested.store) := by
  have works : Works Sample.setting Sample.undelivered Sample.toRest := by decide +kernel
  have rest : Sample.rested.AtRest := by
    intro move
    cases move with
    | _ => rfl
  obtain ⟨most, quiesces⟩ := watch_quiesces Sample.setting Memory.Sample.reachable
    (List.forall_mem_singleton.2 (rfl : Memory.Sample.request.nameSpace = none)) []
    (List.forall_mem_singleton.2 Sample.plain) .zero
  obtain ⟨-, -, settled, upToDate⟩ := quiesces Sample.toRest works
  have kept : (Sample.rested.store.entries.get? Memory.Sample.request.entryKey).isSome = true := by
    decide +kernel
  obtain ⟨entry, stored⟩ := Option.isSome_iff_exists.1 kept
  obtain ⟨-, -, -, -, -, requested⟩ := upToDate rest
  exact ⟨works, rest, by rfl, settled, requested [] List.nil_prefix Memory.Sample.request
    List.mem_cons_self entry (getEntry_eq_ok.2 stored) .epoch⟩

end ApiCatalog.Watch
