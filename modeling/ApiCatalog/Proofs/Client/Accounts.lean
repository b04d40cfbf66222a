import ApiCatalog.Proofs.Client.Failures
import ApiCatalog.Proofs.Store.Listing

/-!
# The accounts of an entry's references

Main statement: however calls fail, a client that has listed the bindings of the target skips each
reference of the entry, reuses a binding for it, creates one for it or fails to, and changes nothing
else (`every_reference_accounted`).
-/
namespace ApiCatalog

namespace Memory

/-- Has a binding of the reference under the name. -/
def Binds (s : Memory) (partition : Partition) (r : ExportReference) (name : String) : Prop :=
  ∃ b, s.getBinding partition name = .ok b ∧ b.reference = r

/-- The binding of the reference under the name is the first one in name order. -/
def BindsFirst (s : Memory) (partition : Partition) (r : ExportReference) (name : String) : Prop :=
  s.Binds partition r name ∧
    ∀ other, s.Binds partition r other → other ≠ name → compare name other = .lt

section First

variable {s : Memory} {partition : Partition} {r : ExportReference} {name : String}

theorem binds_iff_listed (keyed : KeyedBy s.bindings) : s.Binds partition r name ↔
    ∃ b ∈ s.listBindings partition, b.metadata.name = name ∧ b.reference = r := by
  constructor
  · rintro ⟨b, found, own⟩
    have stored := getBinding_eq_ok.1 found
    have here : ObjectKey.cluster partition name = Stored.key partition b := keyed _ _ stored
    exact ⟨b, keyed.mem_listed_iff.2 (here ▸ stored), (congrArg ObjectKey.name here).symm, own⟩
  · rintro ⟨b, listed, rfl, own⟩
    exact ⟨b, getBinding_eq_ok.2 (keyed.mem_listed_iff.1 listed), own⟩

/-- A search by reference finds a binding if there is one. -/
theorem Binds.exists_found (keyed : KeyedBy s.bindings) (held : s.Binds partition r name) :
    ∃ b, (s.listBindings partition).find? (·.reference == r) = some b := by
  obtain ⟨c, listed, -, own⟩ := (binds_iff_listed keyed).1 held
  have some : ((s.listBindings partition).find? (·.reference == r)).isSome :=
    List.find?_isSome.2 ⟨c, listed, beq_iff_eq.2 own⟩
  exact Option.isSome_iff_exists.1 some

/-- There is one first binding at most. -/
theorem BindsFirst.unique {other : String} (first : s.BindsFirst partition r name)
    (second : s.BindsFirst partition r other) : name = other := by
  by_contra apart
  have less := first.2 other second.1 (Ne.symm apart)
  have greater := second.2 name first.1 apart
  rw [Std.OrientedCmp.gt_of_lt less] at greater
  cases greater

/-- A list in name order is searched for the first binding. -/
theorem known_listBindings_iff (keyed : KeyedBy s.bindings) :
    Binding.known (s.listBindings partition) r = some name ↔ s.BindsFirst partition r name := by
  have sorted : (s.listBindings partition).Pairwise
      fun a b => compare a.metadata.name b.metadata.name = .lt :=
    keyed.listed_sorted fun _ _ => rfl
  have found {b : ApiBinding}
      (there : (s.listBindings partition).find? (·.reference == r) = some b) :
      s.BindsFirst partition r b.metadata.name := by
    have own : b.reference = r := by simpa using List.find?_some there
    refine ⟨(binds_iff_listed keyed).2 ⟨b, List.mem_of_find?_eq_some there, rfl, own⟩, ?_⟩
    intro other binds apart
    obtain ⟨c, listed, rfl, theirs⟩ := (binds_iff_listed keyed).1 binds
    obtain ⟨-, before, after, split, none⟩ := List.find?_eq_some_iff_append.1 there
    rw [split] at listed sorted
    rcases List.mem_append.1 listed with early | late
    · simpa [theirs] using none c early
    · rcases List.mem_cons.1 late with rfl | later
      · exact absurd rfl apart
      · exact (List.pairwise_cons.1 (List.pairwise_append.1 sorted).2.1).1 c later
  constructor
  · intro is_known
    obtain ⟨b, there, rfl⟩ := Option.map_eq_some_iff.1 is_known
    exact found there
  · intro first
    obtain ⟨b, there⟩ := first.1.exists_found keyed
    rw [Binding.known, there]
    exact congrArg Option.some ((found there).unique first)

end First
end Memory

namespace Client.Surroundings

variable {δ : Type} {z : Surroundings δ} {s s' : Memory}

/-- A binding that others have moved has the key and the reference that it had. -/
theorem Adds.binds_iff (adds : z.Adds [] s s') {partition : Partition} {r : ExportReference}
    {name : String} : s'.Binds partition r name ↔ s.Binds partition r name := by
  unfold Memory.Binds
  simp only [Memory.getBinding_eq_ok]
  cases there : s.bindings.get? (.cluster partition name) with
  | none => simp [adds.others there nofun]
  | some b =>
    obtain ⟨b', found, kept⟩ := adds.kept there
    have own : b'.reference = b.reference := by rw [kept.still]
    simp [found, own]

theorem Adds.keyed (adds : z.Adds [] s s') (keyed : Memory.KeyedBy s.bindings) :
    Memory.KeyedBy s'.bindings := by
  intro key b' found
  cases there : s.bindings.get? key with
  | none =>
    rw [adds.others there nofun] at found
    cases found
  | some b =>
    obtain ⟨c, same, kept⟩ := adds.kept there
    rw [same] at found
    cases found
    rw [kept.still]
    exact keyed key b there

/-- What others move on the way does not show in what is found out about references. -/
theorem known_moved (adds : z.Adds [] s s') (keyed : Memory.KeyedBy s.bindings)
    {partition : Partition} {r : ExportReference} {name : String} :
    Binding.known (s'.listBindings partition) r = some name ↔ s.BindsFirst partition r name := by
  rw [Memory.known_listBindings_iff (adds.keyed keyed)]
  simp only [Memory.BindsFirst, adds.binds_iff]

end Client.Surroundings

namespace Binding

open Client

section Runs

variable {δ : Type} {z : Surroundings δ} {o : Options}

/-- The entry that a client has been given is that of the store, and so are the bindings but for
what others have moved, unless the listing was refused. -/
theorem listing_served {s : Memory} {log : List Deed} {d : δ} {n : Nat} {w : Premises δ}
    (follows : Program.Follows z.serve ⟨s, d, n⟩ log w) {partition : Partition} {name : String}
    {entry : CatalogEntry} {listing : Except StoreError (List ApiBinding)} {rest : List Note}
    (noted : notes log =
      .fetched partition name (.ok entry) :: .listed o.target listing :: rest) :
    s.getEntry partition name = .ok entry ∧
      ((∃ n e, (z.around n).refusal = some e ∧ listing = .error e) ∨
        ∃ t, z.Adds [] s t ∧ listing = .ok (t.listBindings o.target)) := by
  obtain ⟨v, later, before, fetched, follows, noted⟩ := Surroundings.follows_note follows noted rfl
  obtain ⟨v', last, between, listed, -, -⟩ := Surroundings.follows_note follows noted rfl
  have moved (u : Premises δ) : z.Adds [] u.store (z.moved u) :=
    Surroundings.adds_move z u.actions u.store
  have first : z.Adds [] s (z.moved v) := before.trans (moved v)
  have quiet : Quiet (.call (.getEntry partition name)) := trivial
  rw [z.store_serve v quiet] at between
  constructor
  · rcases z.serve_reading v quiet with ⟨e, -, refused⟩ | answered
    · rw [fetched] at refused
      cases refused
    · rw [fetched] at answered
      have read : (z.moved v).getEntry partition name = .ok entry := answered.symm
      rw [Memory.getEntry_eq_ok] at read ⊢
      exact first.entries ▸ read
  · rcases z.serve_reading v' (c := .listBindings o.target) trivial with
      ⟨e, refusal, refused⟩ | answered
    · exact .inl ⟨_, e, refusal, listed.symm.trans refused⟩
    · exact .inr ⟨_, (first.trans between).trans (moved v'), listed.symm.trans answered⟩

/-- What a client has found out about references is what the store has, unless the listing has
failed. -/
theorem given_listed {s : Memory} (keyed : Memory.KeyedBy s.bindings) {log : List Deed}
    {d : δ} {n : Nat} {w : Premises δ} (follows : Program.Follows z.serve ⟨s, d, n⟩ log w)
    {partition : Partition} {name : String} {entry : CatalogEntry}
    {listing : Except StoreError (List ApiBinding)} {rest : List Note}
    (noted : notes log =
      .fetched partition name (.ok entry) :: .listed o.target listing :: rest) :
    s.getEntry partition name = .ok entry ∧ ∀ r first, known (given listing) r = some first ↔
      (∃ existing, listing = .ok existing) ∧ s.BindsFirst o.target r first := by
  obtain ⟨found, ⟨n, e, -, rfl⟩ | ⟨t, adds, rfl⟩⟩ := listing_served follows noted
  · exact ⟨found, fun r first => ⟨nofun, fun ⟨⟨_, same⟩, _⟩ => nomatch same⟩⟩
  · refine ⟨found, fun r first => ?_⟩
    exact (Surroundings.known_moved adds keyed).trans ⟨fun first => ⟨⟨_, rfl⟩, first⟩, And.right⟩

/-- Each reference is skipped, reused, created or failed. -/
theorem Settles.lengths {target : Partition} {known : ExportReference → Option String}
    {references : List ExportReference} {asked : List Creation} {accounts : List Account}
    (settles : Settles target known references asked accounts) :
    let fates := accounts.filterMap Account.fate?
    (references.filter fun r => !r.isComplete).length + (fates.filterMap Fate.reused?).length +
      (fates.filterMap Fate.created?).length + (fates.filterMap Fate.error?).length =
        references.length := by
  induction settles with
  | none => rfl
  | skipped incomplete rest ih =>
    simp [incomplete, List.filterMap_cons, Account.fate?] at ih ⊢
    omega
  | reused complete _ rest ih | created complete _ rest ih | failed complete _ rest ih =>
    simp [complete, List.filterMap_cons, Account.fate?, Fate.reused?, Fate.created?, Fate.error?]
      at ih ⊢
    omega

/-- A client that ends well has collected no errors and gives the report. -/
theorem Coda.ok {entry : String} {names : List String} {errors : List ClientError}
    {report given : Report} {noted : List Note}
    (coda : Coda o entry names errors report noted (.ok given)) : errors = [] ∧ given = report := by
  refine ⟨coda.reports.1 given rfl, ?_⟩
  generalize ended : (Except.ok given : Except Halt Report) = result at coda
  cases coda with
  | halted awaited => cases ended
  | unflushed awaited reason => cases ended
  | concluded awaited =>
    rcases concluded_cases errors report with ⟨-, good⟩ | ⟨-, bad⟩
    · rw [good] at ended
      exact Except.ok.inj ended
    · rw [bad] at ended
      cases ended

section Creations

variable {log : List Deed} {w w' : Premises δ} {c : Creation} {r : ExportReference}

/-- What is created for a reference. -/
theorem creation_given (follows : Program.Follows z.serve w log w')
    (member : c ∈ creations (notes log)) (wanted : c.wanted = .forReference r) {made : ApiBinding}
    (created : c.answer = .ok made) :
    made.reference = r ∧ made.phase = .pending ∧ made.claims = [] ∧
      ∃ suffix, made.metadata.name = r.exportName ++ "-" ++ suffix := by
  obtain ⟨n, here⟩ := exists_deed_creation member
  obtain ⟨v, -, served⟩ := Surroundings.served_at follows here
  obtain ⟨made, suffix, reply, done⟩ | ⟨e, reply, -, -⟩ :=
    z.serve_createBinding v c.partition c.wanted
  · cases reply.symm.trans (served.trans created)
    rw [wanted] at done
    obtain ⟨version, rfl⟩ := Memory.createBinding_given done
    exact ⟨rfl, rfl, rfl, suffix, rfl⟩
  · cases reply.symm.trans (served.trans created)

/-- Why the creation for a reference fails which is the action of this number: the call is refused,
the name is taken, or the state file is not written. -/
theorem creation_failed (follows : Program.Follows z.serve w log w') {n : Nat}
    (here : log[n]? = some c.deed) (wanted : c.wanted = .forReference r) {e : StoreError}
    (failed : c.answer = .error e) :
    (z.around (w.actions + n)).refusal = some e ∨ (∃ kind key, e = .alreadyExists kind key) ∨
      ∃ path reason, e = .io path reason := by
  obtain ⟨v, number, served⟩ := Surroundings.served_at follows here
  obtain ⟨made, suffix, reply, -⟩ | ⟨e', reply, -, fails⟩ :=
    z.serve_createBinding v c.partition c.wanted
  · cases reply.symm.trans (served.trans failed)
  · cases reply.symm.trans (served.trans failed)
    rw [number, wanted] at fails
    cases fails with
    | refused refusal => exact .inl refusal
    | unnamed none => exact absurd none.2 (by simp [ApiBinding.forReference, ObjectMeta.generated])
    | taken kind key => exact .inr (.inl ⟨kind, key, rfl⟩)
    | unwritten path reason => exact .inr (.inr ⟨path, reason, rfl⟩)

end Creations

/-- The creations of a course are those of its references. -/
theorem Settles.wanted {target : Partition} {known : ExportReference → Option String}
    {references : List ExportReference} {asked : List Creation} {accounts : List Account}
    (settles : Settles target known references asked accounts) :
    ∀ c ∈ asked, c.partition = target ∧ ∃ r ∈ references, c.wanted = .forReference r := by
  have later {reference r : ExportReference} {rest : List ExportReference} {c : Creation}
      (here : r ∈ rest ∧ c.wanted = .forReference r) :
      r ∈ reference :: rest ∧ c.wanted = .forReference r :=
    ⟨List.mem_cons_of_mem _ here.1, here.2⟩
  induction settles with
  | none => exact nofun
  | skipped _ rest ih | reused _ _ rest ih =>
    exact fun c member => ⟨(ih c member).1, (ih c member).2.imp fun r => later⟩
  | created _ _ rest ih | failed _ _ rest ih =>
    refine List.forall_mem_cons.2 ⟨⟨rfl, _, List.mem_cons_self, rfl⟩, fun c member => ?_⟩
    exact ⟨(ih c member).1, (ih c member).2.imp fun r => later⟩

/-- A client that binds an entry makes no calls but those that are noted as such. -/
theorem Course.calls {noted : List Note} {result : Except Halt Report}
    (course : Course o noted result) (c : Call) : .other c ∉ noted := by
  cases course with
  | invalid invalid => exact nofun
  | missing valid e => simp
  | unsaid valid entry reason => simp
  | interrupted valid begins settles reason => simp
  | @settled partition name entry listing asked accounts coda _ valid settles ends =>
    simp only [List.mem_cons, List.mem_append, List.mem_map, reduceCtorEq, false_or, and_false,
      exists_false]
    exact fun late => ends.late _ late

/-- A client that has listed the bindings settles all references, unless output is refused. -/
theorem Course.of_listed {noted : List Note} {result : Except Halt Report}
    (course : Course o noted result) (taken : refusals noted = [])
    {listing : Except StoreError (List ApiBinding)} (listed : .listed o.target listing ∈ noted) :
    ∃ partition name entry asked accounts coda,
      o.validate = .ok (partition, name) ∧
      noted = listedNotes partition name entry o.target listing asked coda ∧
      Settles o.target (known (given listing)) entry.exports asked accounts ∧
      let fates := accounts.filterMap Account.fate?
      let created := fates.filterMap Fate.created?
      Coda o name created (listErrors listing ++ fates.filterMap Fate.error?)
        ⟨created, fates.filterMap Fate.reused?,
          (entry.exports.filter fun r => !r.isComplete).map (·.display)⟩ coda result := by
  cases course with
  | invalid invalid => cases listed
  | missing valid e => simp at listed
  | unsaid valid entry reason => simp at listed
  | interrupted valid begins settles reason =>
    exact absurd (by simp) (refused_not_mem taken reason)
  | @settled partition name entry other asked accounts coda _ valid settles ends =>
    have same : listing = other := by
      simp only [List.mem_cons, List.mem_append, List.mem_map, reduceCtorEq, false_or, and_false,
        exists_false, Note.listed.injEq, true_and] at listed
      rcases listed with same | late
      · exact same
      · exact (ends.late _ late).elim
    subst same
    exact ⟨partition, name, entry, asked, accounts, coda, valid, rfl, settles, ends⟩

/-- In a run that ends well the bindings have been listed, and nothing has failed to be created. -/
theorem Course.of_ok {report : Report} (course : Course o noted (.ok report)) :
    ∃ partition name entry existing asked accounts coda,
      o.validate = .ok (partition, name) ∧
      noted = listedNotes partition name entry o.target (.ok existing) asked coda ∧
      Settles o.target (known existing) entry.exports asked accounts ∧
      (∀ note ∈ coda, Late note) ∧
      (∀ c ∈ asked, ∃ made, c.answer = .ok made) ∧
      report.skipped = (entry.exports.filter fun r => !r.isComplete).map (·.display) := by
  generalize ended : (Except.ok report : Except Halt Report) = result at course
  cases course with
  | invalid invalid => cases ended
  | missing valid e => cases ended
  | unsaid valid entry reason => cases ended
  | interrupted valid begins settles reason => cases ended
  | @settled partition name entry listing asked accounts coda _ valid settles ends =>
    subst ended
    obtain ⟨clean, rfl⟩ := ends.ok
    obtain ⟨listed, unfailed⟩ := List.append_eq_nil_iff.1 clean
    rw [settles.errors_eq, List.map_eq_nil_iff] at unfailed
    cases listing with
    | error e => cases listed
    | ok existing =>
      refine ⟨partition, name, entry, existing, asked, accounts, coda, valid, rfl, settles,
        ends.late, fun c asks => ?_, rfl⟩
      obtain ⟨target, wanted, answer⟩ := c
      cases answer with
      | ok made => exact ⟨made, rfl⟩
      | error e =>
        have among := mem_failures_of_creation ((creations_map asked).symm ▸ asks)
        rw [unfailed] at among
        cases among

/-- What a run that has got past the listing makes of the references of an entry. -/
structure Accounted (z : Surroundings δ) (s s' : Memory) (o : Options) (log : List Deed)
    (ended : Except Halt Report) (listing : Except StoreError (List ApiBinding))
    (entry : CatalogEntry) (accounts : List Account) : Prop where
  /-- The entry is the one that was asked for. -/
  fetched : ∃ partition name, o.validate = .ok (partition, name) ∧
    s.getEntry partition name = .ok entry
  /-- Each of its references is skipped, reused, created or failed. -/
  settles : Settles o.target (known (given listing)) entry.exports (creations (notes log))
    accounts
  /-- A binding that is reused is the first one of the reference that was there before. A listing
  that has failed counts as an empty one. -/
  reuses : ∀ r first, known (given listing) r = some first ↔
    (∃ existing, listing = .ok existing) ∧ s.BindsFirst o.target r first
  /-- What is created for a reference. -/
  creates : ∀ c ∈ creations (notes log), ∀ r, c.wanted = .forReference r →
    ∀ made, c.answer = .ok made → made.reference = r ∧ made.phase = .pending ∧ made.claims = [] ∧
      ∃ suffix, made.metadata.name = r.exportName ++ "-" ++ suffix
  /-- Each creation is an action of the run. -/
  acts : ∀ c ∈ creations (notes log), ∃ n : Nat, log[n]? = some c.deed
  /-- The store does not find invalid what it is asked to create: where a creation fails, that very
  call is refused, the name is taken, or the state file is not written. -/
  fails : ∀ c ∈ creations (notes log), ∀ e, c.answer = .error e →
    ∀ n : Nat, log[n]? = some c.deed → (z.around n).refusal = some e ∨
      (∃ kind key, e = .alreadyExists kind key) ∨ ∃ path reason, e = .io path reason
  /-- Nothing but what was created is new, and what was there is only moved by others. -/
  adds : z.Adds (made (notes log)) s s'
  /-- A run that ends well reports the accounts in the order of the references, and all of them. -/
  reports : ∀ report, ended = .ok report →
    let fates := accounts.filterMap Account.fate?
    report = ⟨fates.filterMap Fate.created?, fates.filterMap Fate.reused?,
      (entry.exports.filter fun r => !r.isComplete).map (·.display)⟩ ∧
    report.skipped.length + report.reused.length + report.created.length = entry.exports.length

/-- In a run that has got past the listing, every reference of the entry has its account, however
calls fail and whatever others move, if only all output is taken. -/
theorem every_reference_accounted (z : Surroundings δ) (writes : ∀ n, (z.around n).output = .ok ())
    {s : Memory} (reachable : s.Reachable) (d : δ) (patience : Nat) (o : Options)
    {listing : Except StoreError (List ApiBinding)}
    (listed : .listed o.target listing ∈ notes (record z.serve (run patience o) ⟨s, d, 0⟩)) :
    let w : Premises δ := ⟨s, d, 0⟩
    ∃ entry accounts, Accounted z s (after z.serve (run patience o) w).store o
      (record z.serve (run patience o) w) (outcome z.serve (run patience o) w) listing entry
      accounts := by
  intro w
  have follows : Program.Follows z.serve w _ _ := follows_record z.serve (run patience o) w
  have course : Course o _ _ := course_run (ends_record z.serve (run patience o) w)
  obtain ⟨partition, name, entry, asked, accounts, coda, valid, noted, settles, ends⟩ :=
    course.of_listed (Surroundings.refusals_eq_nil follows writes) listed
  obtain ⟨found, reuses⟩ := given_listed reachable.keyed.bindings follows noted
  have all : creations (notes (record z.serve (run patience o) w)) = asked := by
    rw [noted, creations_listedNotes ends.late]
  refine ⟨entry, accounts, ⟨partition, name, valid, found⟩, all ▸ settles, reuses, ?_, ?_, ?_,
    Surroundings.adds_run z follows course.calls, ?_⟩
  · exact fun c asks r wanted made created => creation_given follows asks wanted created
  · exact fun c asks => exists_deed_creation asks
  · intro c asks e failed n here
    obtain ⟨-, r, -, wanted⟩ := settles.wanted c (all ▸ asks)
    have fails := creation_failed follows here wanted failed
    rwa [Nat.zero_add] at fails
  · intro report ended
    rw [ended] at ends
    obtain ⟨clean, rfl⟩ := ends.ok
    refine ⟨rfl, ?_⟩
    have lengths := settles.lengths
    dsimp only at lengths ⊢
    rw [(List.append_eq_nil_iff.1 clean).2, List.length_nil, Nat.add_zero] at lengths
    rw [List.length_map]
    exact lengths

end Runs

namespace Sample

/-- The state file is not written the first time. -/
def fragile : Surroundings Nat where
  backing := .file "state.yaml" fun _ n => (if n = 0 then .error .directory else .ok (), n + 1)
  around n := ⟨[], toString n, .ok (), .zero, none⟩

def references : List ExportReference := [dns, certs, ⟨"root:providers", ""⟩, mail]

/-- The binding that is there before. -/
def bound : ApiBinding := ⟨⟨"certs", "", none, 2⟩, certs, [], .pending⟩

end Sample

section Sample

open Sample

/-- One binding is reused, one is created, and one is not since the state file is not written. -/
theorem every_reference_accounted_sample :
    let w : Premises Nat := ⟨store references, 0, 0⟩
    let log := record fragile.serve (run 1 options) w
    Note.listed .root (.ok [bound]) ∈ notes log ∧
      (creations (notes log)).map Creation.made? =
        [none, some (.root, ⟨⟨"mail-5", "mail-", none, 4⟩, mail, [], .pending⟩)] ∧
      ∃ entry accounts, Accounted fragile (store references)
        (after fragile.serve (run 1 options) w).store options log
        (outcome fragile.serve (run 1 options) w) (.ok [bound]) entry accounts := by
  intro w log
  have listed : Note.listed .root (.ok [bound]) ∈ notes log := by decide +kernel
  have reachable : (store references).Reachable :=
    ((Memory.Reachable.opened .empty).operated (.mutate (.putEntry _ _))).operated
      (.mutate (.putBinding _ _))
  exact ⟨listed, by decide +kernel,
    every_reference_accounted fragile (fun _ => rfl) reachable 0 1 options listed⟩

end Sample

end Binding
end ApiCatalog
