import ApiCatalog.Proofs.Watch.Delivery

/-!
# A watch forgets nothing

As long as the feed keeps up and the worker goes on, every outdated entry of a watched partition has
something coming that will lead to a pass over it. Main statements: one move preserves this
(`Sound.step`), and so it holds after any moves from the start (`outdated_entry_is_awaited`).
-/
namespace ApiCatalog
namespace Watch

open Memory Trigger

section Coverage

variable {setting : Setting} {sys : System} {partition : Partition} {entry : CatalogEntry}

/-- The entry is as it should be, or something is coming that leads to a pass over it. -/
inductive Covered (setting : Setting) (sys : System) (partition : Partition)
    (entry : CatalogEntry) : Prop where
  | settled : ¬Outdated sys.store none entry → Covered setting sys partition entry
  | unlisted : partition ∈ sys.unlisted → Covered setting sys partition entry
  | starting : Delivers partition entry sys.starter → Covered setting sys partition entry
  | queued : Request.forEntry partition entry ∈ sys.waiting → Covered setting sys partition entry
  | published {e : Event} : e ∈ sys.store.published.drop sys.position →
      Concerns partition entry e → Covered setting sys partition entry
  | forwarding {e : Event} {sender : Sender} : sys.forwarder = .delivering e sender →
      Concerns partition entry e → Delivers partition entry sender →
      Covered setting sys partition entry
  | passing {tally : Loop.Tally} {rest : Program Pass.Step.Answer (Except PassError Outcome)} :
      sys.worker = .passing tally (.forEntry partition entry) rest →
      Undisturbed setting.policy sys.store (.forEntry partition entry) entry rest →
      Covered setting sys partition entry

/-- What every reachable state of a watch satisfies. -/
structure Sound (setting : Setting) (sys : System) : Prop where
  keyed : sys.store.Keyed
  position_le : sys.position ≤ sys.store.published.length
  starter : sys.starter.Asks IsListing
  forwarder : ∀ {e sender}, sys.forwarder = .delivering e sender → sender.Asks IsListing
  covered : sys.missed = 0 → sys.worker ≠ .stopped → ∀ {partition entry},
    partition ∈ setting.watched → sys.store.Stores partition entry →
      Covered setting sys partition entry

theorem sound_start (setting : Setting) {store : Memory} (keyed : store.Keyed) :
    Sound setting (.start setting store) where
  keyed
  position_le := Nat.le_refl _
  starter := trivial
  forwarder none := nomatch none
  covered _ _ _ _ listed _ := .unlisted listed

/-- A change of the store while at most the worker moves. A pass that was under way over the entry
is the only thing to look after. -/
theorem Covered.of_announces {s' : Memory} {news : List Event} {worker : Worker}
    (announces : Announces sys.store s' news) (bound : sys.position ≤ sys.store.published.length)
    (stored : s'.Stores partition entry)
    (before : sys.store.Stores partition entry → Covered setting sys partition entry)
    (passing : ∀ {tally rest}, sys.worker = .passing tally (.forEntry partition entry) rest →
      sys.store.Stores partition entry → SameResolutions sys.store s' none entry →
      Undisturbed setting.policy sys.store (.forEntry partition entry) entry rest →
      Covered setting { sys with store := s', worker } partition entry) :
    Covered setting { sys with store := s', worker } partition entry := by
  have feed : s'.published.drop sys.position = sys.store.published.drop sys.position ++ news := by
    rw [announces.published, List.drop_append_of_le_length bound]
  rcases announces.concerns_or_same stored with ⟨e, member, concerns⟩ | ⟨kept, same⟩
  · refine .published (e := e) ?_ concerns
    rw [feed]
    exact List.mem_append_right _ member
  · -- Nothing that matters to the entry has changed, so what was coming still is.
    cases before kept with
    | settled fine => exact .settled fun outdated => fine (same.outdated_iff.1 outdated)
    | unlisted listed => exact .unlisted listed
    | starting delivers => exact .starting delivers
    | queued member => exact .queued member
    | published member concerns =>
      refine .published ?_ concerns
      rw [feed]
      exact List.mem_append_left _ member
    | forwarding delivering concerns delivers => exact .forwarding delivering concerns delivers
    | passing under undisturbed => exact passing under kept same undisturbed

theorem Sound.mutate (sound : Sound setting sys) (m : Mutation) :
    Sound setting { sys with store := m.apply sys.store } := by
  obtain ⟨news, announces⟩ := m.announces sys.store
  refine ⟨sound.keyed.mutate m, ?_, sound.starter, sound.forwarder, ?_⟩
  · rw [announces.published, List.length_append]
    exact Nat.le_add_right_of_le sound.position_le
  · intro kept going partition entry listed stored
    refine Covered.of_announces announces sound.position_le stored
      (fun before => sound.covered kept going listed before) ?_
    intro tally rest under _ same undisturbed
    exact .passing under (undisturbed.congr same)

/-- The forwarder takes an event out of the feed. -/
theorem Sound.receive (sound : Sound setting sys) {e : Event} {next : Nat}
    (listening : sys.forwarder = .listening)
    (received : Feed.receive sys.store.published sys.position = .event e next) :
    Sound setting { sys with
      position := next, forwarder := .delivering e (Trigger.requests setting.watched e) } := by
  obtain ⟨here, rfl⟩ := Feed.receive_event received
  obtain ⟨bound, rfl⟩ := List.getElem?_eq_some_iff.1 here
  have feed := List.drop_eq_getElem_cons bound
  refine ⟨sound.keyed, bound, sound.starter, ?_, ?_⟩
  · intro e sender delivering
    cases delivering
    exact asks_requests setting.watched _
  · intro kept going partition entry listed stored
    cases sound.covered kept going listed stored with
    | settled fine => exact .settled fine
    | unlisted listed => exact .unlisted listed
    | starting delivers => exact .starting delivers
    | queued member => exact .queued member
    | published member concerns =>
      rw [feed] at member
      rcases List.mem_cons.1 member with rfl | member
      · exact .forwarding rfl concerns (ensures_requests listed concerns)
      · exact .published member concerns
    | forwarding delivering =>
      rw [listening] at delivering
      cases delivering
    | passing under undisturbed => exact .passing under undisturbed

theorem Sound.forward (sound : Sound setting sys) : Sound setting (sys.forward setting) := by
  unfold System.forward
  split
  next listening =>
    split
    next received => exact sound.receive listening received
    next missed next lagged =>
      obtain ⟨more, -, bound⟩ := Feed.receive_lagged lagged
      refine ⟨sound.keyed, bound, sound.starter, sound.forwarder, fun kept => ?_⟩
      have none_missed : sys.missed + missed = 0 := kept
      omega
    · exact sound
  next e sent =>
    refine ⟨sound.keyed, sound.position_le, sound.starter, (fun h => nomatch h), ?_⟩
    intro kept going partition entry listed stored
    cases sound.covered kept going listed stored with
    | settled fine => exact .settled fine
    | unlisted listed => exact .unlisted listed
    | starting delivers => exact .starting delivers
    | queued member => exact .queued member
    | published member concerns => exact .published member concerns
    | forwarding delivering _ delivers =>
      rw [sent] at delivering
      cases delivering
      cases delivers
    | passing under undisturbed => exact .passing under undisturbed
  next e sender _ busy =>
    obtain ⟨sender', waiting', advanced, asks, sent, moved⟩ :=
      Sender.advance_spec (sound.forwarder busy) sys.store sys.waiting
    rw [advanced]
    refine ⟨sound.keyed, sound.position_le, sound.starter, ?_, ?_⟩
    · intro e sender delivering
      cases delivering
      exact asks
    · intro kept going partition entry listed stored
      cases sound.covered kept going listed stored with
      | settled fine => exact .settled fine
      | unlisted listed => exact .unlisted listed
      | starting delivers => exact .starting delivers
      | queued member => exact .queued (sent member)
      | published member concerns => exact .published member concerns
      | forwarding delivering concerns delivers =>
        rw [busy] at delivering
        cases delivering
        rcases moved stored delivers with here | later
        · exact .queued here
        · exact .forwarding rfl concerns later
      | passing under undisturbed => exact .passing under undisturbed

/-- Start-up begins with a further partition. -/
theorem Sound.list (sound : Sound setting sys) {first : Partition} {others : List Partition}
    (sent : sys.starter = .done []) (unlisted : sys.unlisted = first :: others) :
    Sound setting { sys with unlisted := others, starter := System.listing first } := by
  refine ⟨sound.keyed, sound.position_le, ?_, sound.forwarder, ?_⟩
  · exact (asks_enqueueAll first _).bind fun done => trivial
  · intro kept going partition entry listed stored
    cases sound.covered kept going listed stored with
    | settled fine => exact .settled fine
    | unlisted member =>
      rw [unlisted] at member
      rcases List.mem_cons.1 member with rfl | member
      · exact .starting ((ensures_enqueueAll rfl).bind fun done member => member)
      · exact .unlisted member
    | starting delivers =>
      rw [sent] at delivers
      cases delivers
    | queued member => exact .queued member
    | published member concerns => exact .published member concerns
    | forwarding delivering concerns delivers => exact .forwarding delivering concerns delivers
    | passing under undisturbed => exact .passing under undisturbed

theorem Sound.enqueue (sound : Sound setting sys) : Sound setting sys.enqueue := by
  unfold System.enqueue
  split
  · exact sound
  next sent unlisted => exact sound.list sent unlisted
  · obtain ⟨starter', waiting', advanced, asks, sent, moved⟩ :=
      Sender.advance_spec sound.starter sys.store sys.waiting
    rw [advanced]
    refine ⟨sound.keyed, sound.position_le, asks, sound.forwarder, ?_⟩
    intro kept going partition entry listed stored
    cases sound.covered kept going listed stored with
    | settled fine => exact .settled fine
    | unlisted listed => exact .unlisted listed
    | starting delivers =>
      rcases moved stored delivers with here | later
      · exact .queued here
      · exact .starting later
    | queued member => exact .queued (sent member)
    | published member concerns => exact .published member concerns
    | forwarding delivering concerns delivers => exact .forwarding delivering concerns delivers
    | passing under undisturbed => exact .passing under undisturbed

/-- The worker takes a request. -/
theorem Sound.take (sound : Sound setting sys) {tally : Loop.Tally} {request : Request}
    {others : List Request} (idle : sys.worker = .idle tally)
    (waiting : sys.waiting = request :: others) (now : Instant) :
    Sound setting { sys with
      waiting := others
      worker := .passing tally request (reconcile setting.policy now request) } := by
  refine ⟨sound.keyed, sound.position_le, sound.starter, sound.forwarder, ?_⟩
  intro kept _ partition entry listed stored
  have going : sys.worker ≠ .stopped := fun stopped => nomatch idle.symm.trans stopped
  cases sound.covered kept going listed stored with
  | settled fine => exact .settled fine
  | unlisted listed => exact .unlisted listed
  | starting delivers => exact .starting delivers
  | queued member =>
    rw [waiting] at member
    rcases List.mem_cons.1 member with rfl | member
    · exact .passing rfl (.waiting now)
    · exact .queued member
  | published member concerns => exact .published member concerns
  | forwarding delivering concerns delivers => exact .forwarding delivering concerns delivers
  | passing under => cases idle.symm.trans under

/-- The worker makes a step of a pass, with a call to the store. -/
theorem Sound.perform (sound : Sound setting sys) {tally : Loop.Tally} {request : Request}
    {step : Pass.Step} {next : step.Answer → Program Pass.Step.Answer (Except PassError Outcome)}
    (under : sys.worker = .passing tally request (.ask step next)) :
    Sound setting { sys with
      store := (Memory.perform step sys.store).2
      worker := .passing tally request (next (Memory.perform step sys.store).1) } := by
  obtain ⟨news, announces⟩ := perform_announces sys.store step
  have going : sys.worker ≠ .stopped := fun stopped => nomatch under.symm.trans stopped
  refine ⟨sound.keyed.perform step, ?_, sound.starter, sound.forwarder, ?_⟩
  · rw [announces.published, List.length_append]
    exact Nat.le_add_right_of_le sound.position_le
  · intro kept _ partition entry listed stored
    refine Covered.of_announces announces sound.position_le stored
      (fun before => sound.covered kept going listed before) ?_
    intro tally' rest under' before _ undisturbed
    cases under.symm.trans under'
    rcases undisturbed.step rfl before with ⟨same, undisturbed⟩ | written
    · exact .passing rfl (same.symm ▸ undisturbed)
    · -- The event of the write takes the place of the pass.
      refine .published ?_ (.inl rfl)
      rw [written, List.drop_append_of_le_length sound.position_le]
      exact List.mem_append_right _ List.mem_cons_self

/-- The worker is done with a pass. -/
theorem Sound.settle (sound : Sound setting sys) {tally : Loop.Tally} {request : Request}
    {result : Except PassError Outcome}
    (under : sys.worker = .passing tally request (.done result)) (tally' : Loop.Tally) :
    Sound setting { sys with worker := .idle tally' } := by
  have going : sys.worker ≠ .stopped := fun stopped => nomatch under.symm.trans stopped
  refine ⟨sound.keyed, sound.position_le, sound.starter, sound.forwarder, ?_⟩
  intro kept _ partition entry listed stored
  cases sound.covered kept going listed stored with
  | settled fine => exact .settled fine
  | unlisted listed => exact .unlisted listed
  | starting delivers => exact .starting delivers
  | queued member => exact .queued member
  | published member concerns => exact .published member concerns
  | forwarding delivering concerns delivers => exact .forwarding delivering concerns delivers
  | passing under' undisturbed =>
    cases under.symm.trans under'
    exact .settled undisturbed.done

theorem Sound.stop (sound : Sound setting sys) : Sound setting { sys with worker := .stopped } :=
  ⟨sound.keyed, sound.position_le, sound.starter, sound.forwarder, fun _ going => absurd rfl going⟩

theorem Sound.work (sound : Sound setting sys) (now : Instant) :
    Sound setting (sys.work setting now) := by
  unfold System.work
  split
  next tally idle =>
    split
    · exact sound
    next request others waiting => exact sound.take idle waiting now
  next tally request step next under => exact sound.perform under
  next tally request result under =>
    split
    next tally' _ => exact sound.settle under tally'
    · exact sound.stop
  · exact sound

theorem Sound.step (sound : Sound setting sys) (move : Move) :
    Sound setting (sys.step setting move) := by
  cases move with
  | mutate m => exact sound.mutate m
  | forward => exact sound.forward
  | enqueue => exact sound.enqueue
  | work now => exact sound.work now
  | stop => exact sound.stop

theorem Sound.run (sound : Sound setting sys) (moves : List Move) :
    Sound setting (sys.run setting moves) := by
  induction moves generalizing sys with
  | nil => exact sound
  | cons move rest ih => exact ih (sound.step move)

end Coverage

/-- After start-up, whatever moves were made in whatever order, an entry of a watched partition that
a fresh pass would not leave unchanged has its request queued, or an event of it or of an export it
refers to is in the feed or is being delivered with the request still to be sent, or a pass over it
is under way that does what a fresh pass does. -/
theorem outdated_entry_is_awaited (setting : Setting) {store : Memory}
    (reachable : store.Reachable) (moves : List Move) {sys : System}
    (reached : (System.start setting store).run setting moves = sys)
    (started : sys.unlisted = [] ∧ sys.starter = .done []) (kept : sys.missed = 0)
    (going : sys.worker ≠ .stopped) {partition : Partition} (listed : partition ∈ setting.watched)
    {name : String} {entry : CatalogEntry} (found : sys.store.getEntry partition name = .ok entry)
    {now : Instant}
    (stale : ∀ invalid, (sys.store.pass setting.policy now ⟨partition, none, name⟩).1 ≠
      .ok (.unchanged invalid)) :
    ⟨partition, none, name⟩ ∈ sys.waiting ∨
      (∃ e ∈ sys.store.published.drop sys.position, Concerns partition entry e) ∨
      (∃ e sender, sys.forwarder = .delivering e sender ∧ Concerns partition entry e ∧
        ⟨partition, none, name⟩ ∈ (sender.run respond sys.store).1) ∨
      ∃ tally rest later, sys.worker = .passing tally ⟨partition, none, name⟩ rest ∧
        rest.run perform sys.store =
          sys.store.pass setting.policy later ⟨partition, none, name⟩ := by
  have sound : Sound setting sys := reached ▸ (sound_start setting reachable.keyed).run moves
  obtain ⟨rfl, stored⟩ := sound.keyed.getEntry_eq_ok_iff.1 found
  cases sound.covered kept going listed stored with
  | settled fine =>
    have idle := pass_of_not_outdated sound.keyed ⟨partition, none, entry.name⟩ found fine
      setting.policy now
    exact absurd (congrArg Prod.fst idle) (stale _)
  | unlisted member =>
    rw [started.1] at member
    cases member
  | starting delivers =>
    rw [started.2] at delivers
    cases delivers
  | queued member => exact .inl member
  | published member concerns => exact .inr (.inl ⟨_, member, concerns⟩)
  | forwarding delivering concerns delivers =>
    have sent := delivers.run (sound.forwarder delivering) stored
    exact .inr (.inr (.inl ⟨_, _, delivering, concerns, sent⟩))
  | passing under undisturbed =>
    obtain ⟨later, same⟩ := undisturbed.run_eq found
    exact .inr (.inr (.inr ⟨_, _, later, under, same⟩))

namespace Sample

def setting : Setting := ⟨.drop, ⟨10, false⟩, [.root]⟩

/-- The entry is enqueued and a pass over it made. Then the export it refers to goes away. -/
def moves : List Move :=
  List.replicate 3 .enqueue ++ List.replicate 6 (.work .epoch) ++
    [.mutate (.deleteExport ⟨.root, none, "widgets"⟩)]

def system : System := (System.start setting Memory.Sample.store).run setting moves

def entry : CatalogEntry := ((system.store.entries.get? (.cluster .root "tools")).getD default)

end Sample

/-- Nothing is queued and no pass is under way, so it is the feed that tells of the change. -/
theorem outdated_entry_is_awaited_sample :
    ∃ e ∈ Sample.system.store.published.drop Sample.system.position,
      Concerns .root Sample.entry e := by
  have found : Sample.system.store.getEntry .root "tools" = .ok Sample.entry :=
    getEntry_eq_ok.2 (by decide +kernel)
  have writes : (Sample.system.store.pass .drop .epoch ⟨.root, none, "tools"⟩).1 =
      .ok (.statusUpdated 4 ["root/widgets", "root/gadgets"]) := by rfl
  have reached : (System.start Sample.setting Memory.Sample.store).run Sample.setting Sample.moves =
      Sample.system := rfl
  have awaited := outdated_entry_is_awaited Sample.setting Memory.Sample.reachable Sample.moves
    reached ⟨rfl, rfl⟩ rfl (fun stopped => nomatch stopped) List.mem_cons_self found
    fun invalid unchanged => nomatch writes.symm.trans unchanged
  rcases awaited with queued | published | ⟨e, sender, delivering, -⟩ |
    ⟨tally, rest, later, under, -⟩
  · have empty : Sample.system.waiting = [] := by decide +kernel
    rw [empty] at queued
    cases queued
  · exact published
  · have listening : Sample.system.forwarder = .listening := by rfl
    cases listening.symm.trans delivering
  · have idle : Sample.system.worker = .idle ⟨⟨1, 1, 0, 0, 0⟩, 0⟩ := by rfl
    cases idle.symm.trans under

end Watch
end ApiCatalog
