import ApiCatalog.Proofs.Client.BoundLine

/-!
# Binding an entry again

A run that has ended well leaves a binding of each complete reference. Main statement: while these
are there, in whatever phases, another run creates nothing, waits for nothing and ends well
(`bound_again`).
-/
namespace ApiCatalog

/-- Of the bindings of a reference one is the first. -/
theorem Memory.Binds.exists_first {s : Memory} (keyed : KeyedBy s.bindings) {partition : Partition}
    {r : ExportReference} {name : String} (held : s.Binds partition r name) :
    ∃ first, s.BindsFirst partition r first := by
  obtain ⟨b, there⟩ := held.exists_found keyed
  refine ⟨b.metadata.name, (known_listBindings_iff keyed).1 ?_⟩
  rw [Binding.known, there]
  rfl

namespace Client.Surroundings

open Binding

variable {δ : Type} {z : Surroundings δ}

section Objects

variable {s s' : Memory} {made : List (Partition × ApiBinding)}

/-- A binding is still there, and of the same reference, whatever is added. -/
theorem Adds.binds (adds : z.Adds made s s') {partition : Partition} {r : ExportReference}
    {name : String} (held : s.Binds partition r name) : s'.Binds partition r name := by
  obtain ⟨b, found, own⟩ := held
  obtain ⟨b', there, kept⟩ := adds.kept (Memory.getBinding_eq_ok.1 found)
  refine ⟨b', Memory.getBinding_eq_ok.2 there, ?_⟩
  rw [kept.still]
  exact own

theorem Adds.binds_made (adds : z.Adds made s s') {partition : Partition} {b : ApiBinding}
    (member : (partition, b) ∈ made) :
    s'.Binds partition b.reference b.metadata.name := by
  obtain ⟨b', there, kept⟩ := adds.there _ member
  refine ⟨b', Memory.getBinding_eq_ok.2 there, ?_⟩
  rw [kept.still]

theorem Adds.getEntry (adds : z.Adds made s s') (partition : Partition) (name : String) :
    s'.getEntry partition name = s.getEntry partition name := by
  unfold Memory.getEntry
  rw [adds.entries]

end Objects

/-- A call that reads and is not refused is answered by what the store holds then. -/
theorem serve_accepted (w : Premises δ) (accepts : (z.around w.actions).refusal = none) (c : Call)
    (quiet : Quiet (.call c)) :
    (z.serve (.call c) w).1 = ((Memory.answer (pure "") c).run (z.moved w) : Id _).1 := by
  rw [z.serve_eq_replied w quiet, replied, accepts]

/-- A client that creates nothing and makes no other calls leaves the state file as it is. -/
theorem device_run {log : List Deed} {w w' : Premises δ}
    (follows : Program.Follows z.serve w log w') (known : ∀ c, .other c ∉ notes log)
    (none : creations (notes log) = []) : w'.device = w.device := by
  induction log generalizing w with
  | nil =>
    cases follows
    rfl
  | cons deed rest ih =>
    obtain ⟨action, reply⟩ := deed
    obtain ⟨-, later⟩ := follows
    dsimp only at later
    have split : notes (⟨action, reply⟩ :: rest) = notes [⟨action, reply⟩] ++ notes rest :=
      notes_append [_] rest
    rw [split, creations_append, List.append_eq_nil_iff] at none
    obtain ⟨here, behind⟩ := other_not_mem_append.1
      (show ∀ c, .other c ∉ notes ([⟨action, reply⟩] ++ rest) from known)
    have quiet : Quiet action := by
      cases action with
      | call c =>
        cases c with
        | createBinding partition wanted => cases none.1
        | updateEntryStatus partition entry => exact absurd List.mem_cons_self (here _)
        | _ => trivial
      | _ => trivial
    rw [ih later behind none.2, z.serve_quiet w quiet]

end Client.Surroundings

namespace Binding

open Client

section Idle

variable {o : Options} {log : List Deed} {patience : Nat}

/-- A line that is written is no look. -/
theorem looks_print {pieces : List String} {result : Except Halt Unit}
    (ends : Ends (print pieces) log result) :
    looks (notes log) = [] ∧ result ≠ .error .unfinished := by
  obtain ⟨rfl, rfl⟩ | ⟨reason, rfl, rfl⟩ := ends.of_print
  · refine ⟨List.eq_nil_iff_forall_not_mem.2 fun l member => ?_, nofun⟩
    obtain ⟨deed, on_record, noted⟩ := exists_deed (mem_looks_iff.1 member)
    cases List.mem_singleton.1 on_record
    obtain ⟨entry, same, -⟩ := told?_eq_some noted
    cases same
  · exact ⟨rfl, nofun⟩

/-- There is no look in the first round. -/
theorem idle_waitUntilBound {result : Except Halt (Except String Unit)}
    (ends : Ends (waitUntilBound o [] (patience + 1)) log result) :
    notes log = [] ∧ result = .ok (.ok ()) := by
  obtain ⟨start, later, rfl, going⟩ := ends.of_act_bind
  rw [notes_cons_of_none rfl]
  obtain ⟨rfl, rfl⟩ := Ends.of_pure going
  exact ⟨rfl, rfl⟩

/-- A client that has created nothing looks at nothing, and does not go on waiting. -/
theorem idle_await {entry : String} {result : Except Halt Unit}
    (ends : Ends (await o entry [] (patience + 1)) log result) :
    looks (notes log) = [] ∧ result ≠ .error .unfinished := by
  unfold await at ends
  split at ends
  · exact looks_print ends
  · obtain ⟨h, halted, rfl⟩ | ⟨outcome, first, rest, rfl, waited, said⟩ := ends.of_bind
    · cases (idle_waitUntilBound halted).2
    · obtain ⟨quiet, same⟩ := idle_waitUntilBound waited
      cases same
      rw [notes_append, quiet]
      exact looks_print said

theorem idle_conclude {errors : List ClientError} {report : Report} {result : Except Halt Report}
    (ends : Ends (do flush; conclude errors; return report) log result) :
    looks (notes log) = [] ∧ result ≠ .error .unfinished := by
  obtain ⟨h, halted, rfl⟩ | ⟨_, flushing, later, rfl, flushed, concludes⟩ := ends.of_bind
  · obtain ⟨-, same⟩ | ⟨reason, rfl, same⟩ := halted.of_flush
    · cases same
    · cases same
      exact ⟨rfl, nofun⟩
  obtain ⟨rfl, -⟩ | ⟨reason, -, same⟩ := flushed.of_flush
  · obtain ⟨rfl, rfl⟩ := ends_conclude concludes
    refine ⟨rfl, fun same => ?_⟩
    rcases concluded_cases errors report with ⟨-, ended⟩ | ⟨-, ended⟩
    · cases ended.symm.trans same
    · cases ended.symm.trans same
  · cases same

/-- What is left to do after the listing has no wait in it if nothing is created. -/
theorem idle_settle {name : String} {entry : CatalogEntry}
    {listing : Except StoreError (List ApiBinding)} {result : Except Halt Report}
    (ends : Ends (settle o name entry listing (patience + 1)) log result)
    (none : madeNames (notes log) = []) :
    looks (notes log) = [] ∧ result ≠ .error .unfinished := by
  obtain ⟨h, halted, rfl⟩ | ⟨fates, binding, rest, rfl, bound, ending⟩ := ends.of_bind
  · have binds := bindsAll halted
    generalize notes log = noted at binds ⊢
    cases binds with
    | refused begins settles reason =>
      rw [looks_append, looks_creations]
      exact ⟨rfl, nofun⟩
  have binds := bindsAll bound
  rw [notes_append] at none ⊢
  generalize notes binding = noted at binds none ⊢
  cases binds with
  | all settles =>
    rw [madeNames, made_append, List.map_append, List.append_eq_nil_iff] at none
    have created := settles.created_eq.trans none.1
    rw [looks_append, looks_creations, List.nil_append]
    dsimp only at ending
    rw [created] at ending
    obtain ⟨h, halted, rfl⟩ | ⟨_, waiting, last, rfl, waited, flushes⟩ := ending.of_bind
    · obtain ⟨unlooked, waits⟩ := idle_await halted
      exact ⟨unlooked, fun same => waits (by cases same; rfl)⟩
    rw [notes_append, looks_append, (idle_await waited).1, List.nil_append]
    exact idle_conclude flushes

/-- A run that creates nothing looks at nothing, and is not given up waiting. -/
theorem idle_run {result : Except Halt Report} (ends : Ends (run (patience + 1) o) log result)
    (none : madeNames (notes log) = []) :
    looks (notes log) = [] ∧ result ≠ .error .unfinished := by
  have opening := opening_run ends
  generalize notes log = noted at opening none ⊢
  cases opening with
  | invalid invalid => exact ⟨rfl, nofun⟩
  | missing valid e => exact ⟨rfl, nofun⟩
  | unsaid valid entry reason => exact ⟨rfl, nofun⟩
  | listed valid entry listing settles => exact idle_settle settles none

end Idle

section Known

variable {o : Options} {noted : List Note}

/-- What a report has of references that are all reused. -/
theorem fates_reused (names : List String) :
    (names.map Fate.reused).filterMap Fate.created? = [] ∧
      (names.map Fate.reused).filterMap Fate.error? = [] ∧
        (names.map Fate.reused).filterMap Fate.reused? = names := by
  simp [List.filterMap_map, Function.comp_def, Fate.created?, Fate.error?, Fate.reused?]

/-- A client that is not given up has nothing to wait for where nothing was created. -/
theorem Coda.of_none {entry : String} {report : Report} {result : Except Halt Report}
    (coda : Coda o entry [] [] report noted result) (taken : refusals noted = [])
    (finished : result ≠ .error .unfinished) : result = .ok report := by
  have spoken := refused_not_mem taken
  cases coda with
  | @halted noted h awaited =>
    generalize ended : (Except.error h : Except Halt Unit) = waited at awaited
    cases awaited with
    | unwaited zero => cases ended
    | bound waits seen => cases ended
    | unbound waits unseen reason => exact absurd ⟨[], List.nil_suffix, rfl, nofun⟩ unseen
    | unfinished looks =>
      cases ended
      exact absurd rfl finished
    | unsaid looks reason => exact absurd (by simp) (spoken reason)
  | unflushed awaited reason => exact absurd (by simp) (spoken reason)
  | concluded awaited => rfl

/-- Where all complete references are known nothing is asked for, and each one is reused. -/
theorem Settles.of_known {target : Partition} {known : ExportReference → Option String}
    {references : List ExportReference} {asked : List Creation} {accounts : List Account}
    (settles : Settles target known references asked accounts)
    (all : ∀ r ∈ references, r.isComplete → ∃ name, known r = some name) :
    asked = [] ∧ ∃ names, accounts.filterMap Account.fate? = names.map .reused ∧
      List.Forall₂ (fun r name => known r = some name) (references.filter (·.isComplete))
        names := by
  induction settles with
  | none => exact ⟨rfl, [], rfl, .nil⟩
  | skipped incomplete rest ih =>
    obtain ⟨none, names, same, found⟩ := ih (List.forall_mem_cons.1 all).2
    rw [List.filter_cons_of_neg incomplete]
    exact ⟨none, names, same, found⟩
  | @reused reference references asked accounts name complete here rest ih =>
    obtain ⟨none, names, same, found⟩ := ih (List.forall_mem_cons.1 all).2
    rw [List.filter_cons_of_pos complete]
    exact ⟨none, name :: names, congrArg (_ :: ·) same, .cons here found⟩
  | created complete unknown rest ih | failed complete unknown rest ih =>
    obtain ⟨name, found⟩ := (List.forall_mem_cons.1 all).1 complete
    cases unknown.symm.trans found

end Known

section Runs

variable {δ : Type} {o : Options}

/-- After a run that has ended well each complete reference of the entry is bound. -/
theorem bound_by_run (z : Surroundings δ) {s : Memory} (reachable : s.Reachable) (d : δ)
    (patience : Nat) {report : Report}
    (ended : outcome z.serve (run patience o) ⟨s, d, 0⟩ = .ok report) :
    let s' := (after z.serve (run patience o) ⟨s, d, 0⟩).store
    ∃ partition name entry, o.validate = .ok (partition, name) ∧
      s'.getEntry partition name = .ok entry ∧
      report.skipped = (entry.exports.filter fun r => !r.isComplete).map (·.display) ∧
      ∀ r ∈ entry.exports, r.isComplete → ∃ bound, s'.Binds o.target r bound := by
  intro s'
  have follows := follows_record z.serve (run patience o) (⟨s, d, 0⟩ : Premises δ)
  have ends := ends_record z.serve (run patience o) (⟨s, d, 0⟩ : Premises δ)
  rw [ended] at ends
  have course : Course o _ _ := course_run ends
  have adds : z.Adds _ s s' := Surroundings.adds_run z follows course.calls
  obtain ⟨partition, name, entry, existing, asked, accounts, coda, valid, noted, settles, late,
    answered, skipped⟩ := course.of_ok
  obtain ⟨found, reuses⟩ := given_listed reachable.keyed.bindings follows noted
  refine ⟨partition, name, entry, valid, (adds.getEntry partition name).trans found, skipped,
    fun r member complete => ?_⟩
  rcases settles.complete member complete with ⟨first, is_known⟩ | ⟨answer, asks⟩
  · exact ⟨first, adds.binds ((reuses r first).1 is_known).2.1⟩
  · obtain ⟨b, same⟩ := answered _ asks
    dsimp only at same
    subst same
    have creation : ⟨o.target, .forReference r, .ok b⟩ ∈
        creations (notes (record z.serve (run patience o) (⟨s, d, 0⟩ : Premises δ))) := by
      rw [noted, creations_listedNotes late]
      exact asks
    have own : b.reference = r := (creation_given follows creation rfl rfl).1
    exact ⟨b.metadata.name, own ▸ adds.binds_made (mem_made_of_creation creation)⟩

/-- Where no call is refused and the entry is there, the bindings of the target are listed. -/
theorem listed_of_found {z : Surroundings δ} (accepts : ∀ n, (z.around n).refusal = none)
    {s : Memory} {d : δ} {n : Nat} {log : List Deed} {w : Premises δ}
    (follows : Program.Follows z.serve ⟨s, d, n⟩ log w) {result : Except Halt Report}
    (course : Course o (notes log) result) (taken : refusals (notes log) = [])
    {partition : Partition} {name : String} {entry : CatalogEntry}
    (valid : o.validate = .ok (partition, name)) (found : s.getEntry partition name = .ok entry) :
    ∃ existing, .listed o.target (.ok existing) ∈ notes log := by
  have spoken := refused_not_mem taken
  have given {listing : Except StoreError (List ApiBinding)}
      (member : .listed o.target listing ∈ notes log) :
      ∃ existing, .listed o.target (.ok existing) ∈ notes log := by
    obtain ⟨deed, on_record, noted⟩ := exists_deed member
    obtain ⟨v, replied⟩ := follows.answered _ on_record
    cases deed_of_note noted rfl
    have all : listing = .ok ((z.moved v).listBindings o.target) :=
      replied.trans (Surroundings.serve_accepted v (accepts _) (.listBindings o.target) trivial)
    exact ⟨_, all ▸ member⟩
  generalize noted_eq : notes log = noted at course spoken given ⊢
  cases course with
  | invalid invalid => cases valid.symm.trans invalid
  | missing valid' e =>
    cases valid.symm.trans valid'
    obtain ⟨v, later, before, fetched, -⟩ := Surroundings.follows_note follows noted_eq rfl
    have adds := before.trans (Surroundings.adds_move z v.actions v.store)
    have read : (z.moved v).getEntry partition name = .error e :=
      (Surroundings.serve_accepted v (accepts _) (.getEntry partition name) trivial).symm.trans
        fetched
    cases found.symm.trans ((adds.getEntry partition name).symm.trans read)
  | unsaid valid' entry reason => exact absurd (by simp) (spoken reason)
  | interrupted valid' begins settles reason => exact absurd (by simp) (spoken reason)
  | settled valid' settles ends => exact given (List.mem_cons_of_mem _ List.mem_cons_self)

/-- What a run does that finds all complete references bound. -/
structure Rebinds (z : Surroundings δ) (s : Memory) (d : δ) (patience : Nat) (o : Options)
    (entry : CatalogEntry) (reused : List String) : Prop where
  /-- It ends well, with the same references skipped. -/
  ended : outcome z.serve (run patience o) ⟨s, d, 0⟩ =
    .ok ⟨[], reused, (entry.exports.filter fun r => !r.isComplete).map (·.display)⟩
  /-- It reuses for each complete reference, in their order, the first binding in name order. -/
  reuses : List.Forall₂ (s.BindsFirst o.target) (entry.exports.filter (·.isComplete)) reused
  /-- It asks for no binding and looks at none. -/
  idle : let noted := notes (record z.serve (run patience o) ⟨s, d, 0⟩)
    creations noted = [] ∧ looks noted = []
  /-- Nothing is changed but what others move meanwhile. -/
  adds : z.Adds [] s (after z.serve (run patience o) ⟨s, d, 0⟩).store
  device : (after z.serve (run patience o) ⟨s, d, 0⟩).device = d

/-- Without refusals, a run that finds all complete references bound takes no look at its bindings,
but ends well at once. -/
theorem rebinds (z : Surroundings δ) (accepts : ∀ n, (z.around n).refusal = none)
    (writes : ∀ n, (z.around n).output = .ok ()) {s : Memory} (reachable : s.Reachable) (d : δ)
    (patience : Nat) {partition : Partition} {name : String} {entry : CatalogEntry}
    (valid : o.validate = .ok (partition, name)) (found : s.getEntry partition name = .ok entry)
    (bound : ∀ r ∈ entry.exports, r.isComplete → ∃ name, s.Binds o.target r name) :
    ∃ reused, Rebinds z s d (patience + 1) o entry reused := by
  let w : Premises δ := ⟨s, d, 0⟩
  have follows : Program.Follows z.serve w _ _ := follows_record z.serve (run (patience + 1) o) w
  have ends := ends_record z.serve (run (patience + 1) o) w
  have course : Course o _ _ := course_run ends
  have taken := Surroundings.refusals_eq_nil follows writes
  obtain ⟨existing, listed⟩ := listed_of_found accepts follows course taken valid found
  obtain ⟨_, _, _, asked, accounts, coda, valid', noted, settles, waits⟩ :=
    course.of_listed taken listed
  cases valid.symm.trans valid'
  obtain ⟨found', reuses⟩ := given_listed reachable.keyed.bindings follows noted
  cases found.symm.trans found'
  obtain ⟨rfl, reused, fates, known⟩ := settles.of_known fun r member complete => by
    obtain ⟨held, binds⟩ := bound r member complete
    obtain ⟨first, is_first⟩ := binds.exists_first reachable.keyed.bindings
    exact ⟨first, (reuses r first).2 ⟨⟨_, rfl⟩, is_first⟩⟩
  have none : creations (notes (record z.serve (run (patience + 1) o) w)) = [] := by
    rw [noted, creations_listedNotes waits.late]
  have unmade : made (notes (record z.serve (run (patience + 1) o) w)) = [] := by
    rw [made, none]
    rfl
  obtain ⟨unseen, finished⟩ := idle_run ends (by rw [madeNames, unmade]; rfl)
  have adds : z.Adds _ s _ := Surroundings.adds_run z follows course.calls
  rw [unmade] at adds
  rw [noted, refusals_listedNotes] at taken
  obtain ⟨uncreated, unfailed, same⟩ := fates_reused reused
  rw [fates] at waits
  dsimp only at waits
  rw [uncreated, unfailed, same] at waits
  refine ⟨reused, ?_, ?_, ⟨none, unseen⟩, adds, Surroundings.device_run follows course.calls none⟩
  · exact waits.of_none taken finished
  · exact known.imp fun r first is_known => ((reuses r first).1 is_known).2

/-- The entry still has its references, and the bindings of the target are still there, whatever
their phases are. -/
structure Lasting (o : Options) (s s' : Memory) : Prop where
  references {partition : Partition} {name : String} {entry : CatalogEntry} :
    o.validate = .ok (partition, name) → s.getEntry partition name = .ok entry →
      ∃ entry', s'.getEntry partition name = .ok entry' ∧ entry'.exports = entry.exports
  bindings {r : ExportReference} {name : String} :
    s.Binds o.target r name → s'.Binds o.target r name

section Lasting

variable {s s' s'' : Memory}

theorem Lasting.trans (first : Lasting o s s') (second : Lasting o s' s'') : Lasting o s s'' where
  references valid found := by
    obtain ⟨entry', found', same⟩ := first.references valid found
    obtain ⟨entry'', found'', same'⟩ := second.references valid found'
    exact ⟨entry'', found'', same'.trans same⟩
  bindings held := second.bindings (first.bindings held)

theorem Lasting.of_adds {z : Surroundings δ} {made : List (Partition × ApiBinding)}
    (adds : z.Adds made s s') : Lasting o s s' where
  references _ found := ⟨_, (adds.getEntry _ _).trans found, rfl⟩
  bindings := adds.binds

/-- A store that is opened from the file of another one has the same objects. -/
theorem Lasting.of_same (same : s'.SameObjects s) : Lasting o s s' where
  references _ found :=
    ⟨_, Memory.getEntry_eq_ok.2 (same.entries ▸ Memory.getEntry_eq_ok.1 found), rfl⟩
  bindings held := by
    obtain ⟨b, found, own⟩ := held
    exact ⟨b, Memory.getBinding_eq_ok.2 (same.bindings ▸ Memory.getBinding_eq_ok.1 found), own⟩

end Lasting

/-- After a run that has ended well, and as long as its bindings last, in whatever phases they are
or come to be, a run with the same options creates nothing, changes nothing and ends well without a
look, and reuses one binding for each complete reference. -/
theorem bound_again {δ' : Type} (z : Surroundings δ) {s : Memory} (reachable : s.Reachable) (d : δ)
    (patience : Nat) (o : Options) {report : Report}
    (ended : outcome z.serve (run patience o) ⟨s, d, 0⟩ = .ok report) (z' : Surroundings δ')
    (accepts : ∀ n, (z'.around n).refusal = none) (writes : ∀ n, (z'.around n).output = .ok ())
    {s' : Memory} (reachable' : s'.Reachable)
    (lasting : Lasting o (after z.serve (run patience o) ⟨s, d, 0⟩).store s') (d' : δ')
    (patience' : Nat) :
    ∃ partition name entry reused, o.validate = .ok (partition, name) ∧
      s'.getEntry partition name = .ok entry ∧ Rebinds z' s' d' (patience' + 1) o entry reused ∧
      outcome z'.serve (run (patience' + 1) o) ⟨s', d', 0⟩ = .ok ⟨[], reused, report.skipped⟩ := by
  obtain ⟨partition, name, entry, valid, found, skipped, bound⟩ :=
    bound_by_run z reachable d patience ended
  obtain ⟨entry', found', same⟩ := lasting.references valid found
  rw [← same] at skipped bound
  obtain ⟨reused, again⟩ := rebinds z' accepts writes reachable' d' patience' valid found'
    fun r member complete => (bound r member complete).imp fun _ held => lasting.bindings held
  exact ⟨partition, name, entry', reused, valid, found', again, skipped ▸ again.ended⟩

end Runs

namespace Sample

/-- The state file is written, and others move the created bindings while the client waits. -/
def obliging : Surroundings Nat where
  backing := .file "state.yaml" fun _ n => (.ok (), n + 1)
  around n := ⟨if n = 7 then [(.root, "dns-3", .bound), (.root, "dns-5", .bound)] else [],
    toString n, .ok (), .ofSeconds n, none⟩

/-- The state file is never written, and others move one of the bindings back. -/
def locked : Surroundings Nat where
  backing := .file "state.yaml" fun _ n => (.error .directory, n + 1)
  around n := ⟨if n = 0 then [(.root, "dns-3", .pending)] else [], toString n, .ok (), .zero, none⟩

def repeated : List ExportReference := [dns, certs, ⟨"root:providers", ""⟩, dns]

end Sample

section Sample

open Sample

theorem ended_of_toOption {ended : Except Halt Report} {report : Report}
    (given : ended.toOption = some report) : ended = .ok report := by
  cases ended with
  | error h => cases given
  | ok ended => exact congrArg Except.ok (Option.some.inj given)

/-- The second run is that of a store that is opened from the file of the first one. One of the
bindings is pending again, and the file cannot be written any more. -/
theorem bound_again_sample :
    let first : Premises Nat := ⟨store repeated, 0, 0⟩
    let left := (after obliging.serve (run 1 hasty) first).store
    let opened := locked.moved ⟨.ofSnapshot left.snapshot, 0, 0⟩
    outcome obliging.serve (run 1 hasty) first =
        .ok ⟨["dns-3", "dns-5"], ["certs"], ["root:providers/"]⟩ ∧
      ((opened.getBinding .root "dns-3").toOption.map (·.phase)) = some .pending ∧
      Lasting hasty left opened ∧
      ∃ entry, Rebinds locked opened 0 1 hasty entry ["dns-3", "certs", "dns-3"] := by
  intro first left opened
  have ended : outcome obliging.serve (run 1 hasty) first =
      .ok ⟨["dns-3", "dns-5"], ["certs"], ["root:providers/"]⟩ :=
    ended_of_toOption (by decide +kernel)
  have reachable : (store repeated).Reachable :=
    ((Memory.Reachable.opened .empty).operated (.mutate (.putEntry _ _))).operated
      (.mutate (.putBinding _ _))
  have reachable' : opened.Reachable :=
    (Memory.Reachable.opened _).operated (.mutate (.setPhase _ _ _))
  have same : (Memory.ofSnapshot left.snapshot).SameObjects left :=
    ⟨by decide +kernel, by decide +kernel, by decide +kernel⟩
  have lasting : Lasting hasty left opened :=
    (Lasting.of_same same).trans (.of_adds (Surroundings.adds_move locked 0 _))
  obtain ⟨_, _, entry, reused, -, -, again, ended'⟩ :=
    bound_again obliging reachable 0 1 hasty ended locked (fun _ => rfl) (fun _ => rfl) reachable'
      lasting 0 0
  have names : outcome locked.serve (run 1 hasty) ⟨opened, 0, 0⟩ =
      .ok ⟨[], ["dns-3", "certs", "dns-3"], ["root:providers/"]⟩ :=
    ended_of_toOption (by decide +kernel)
  cases ended'.symm.trans names
  exact ⟨ended, by decide +kernel, lasting, entry, again⟩

end Sample

end Binding
end ApiCatalog
