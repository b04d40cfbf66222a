import ApiCatalog.Proofs.Client.Duplicates

/-!
# The line that says that an entry is bound

A client writes the line when it has seen all bound that it has created. Main statement: where the
line is written, each complete reference of the entry had a binding before, or has one that was
created and seen bound at the last look, or its creation has failed; and the line is true exactly if
neither the listing nor a creation has failed and the output was taken to its end
(`bound_line_true_iff`). So it can be written for an entry that is not bound
(`bound_line_without_binding`).
-/
namespace ApiCatalog
namespace Binding

open Client

section Told

variable {o : Options} {entry shown : String} {names : List String} {noted : List Note}

/-- The line is written after all bindings have been seen bound. -/
theorem Awaited.told {result : Except Halt Unit} (awaited : Awaited o entry names noted result)
    (told : .told shown ∈ noted) : shown = entry ∧ result = .ok () ∧
      SeenBound o.target names (looks noted) ∧ refusals noted = [] := by
  cases awaited with
  | unwaited zero => cases told
  | bound waits seen =>
    have through := (Awaited.bound waits seen : Awaited o entry names _ _).getsThrough
    exact ⟨by simpa using told, rfl, through.2.resolve_left waits, through.1⟩
  | unbound waits unseen reason => simp at told
  | unfinished all => simp at told
  | unsaid all reason => simp at told

/-- Where the line is written the client ends well exactly if nothing was collected and the output
is taken to its end. -/
theorem Coda.told {errors : List ClientError} {report : Report} {result : Except Halt Report}
    (coda : Coda o entry names errors report noted result) (told : .told shown ∈ noted) :
    shown = entry ∧ SeenBound o.target names (looks noted) ∧
      ((∃ report, result = .ok report) ↔ errors = [] ∧ refusals noted = []) := by
  cases coda with
  | halted awaited => cases (awaited.told told).2.1
  | @unflushed before awaited reason =>
    have said : .told shown ∈ before := by simpa using told
    obtain ⟨same, -, seen, -⟩ := awaited.told said
    rw [looks_append, show looks [.refused reason] = [] from rfl, List.append_nil]
    exact ⟨same, seen, by simp [denied, refusals, Note.refusal?]⟩
  | concluded awaited =>
    obtain ⟨same, -, seen, taken⟩ := awaited.told told
    refine ⟨same, seen, ?_⟩
    rw [taken]
    rcases concluded_cases errors report with ⟨clean, ended⟩ | ⟨failed, ended⟩ <;> rw [ended]
    · simp [clean]
    · simp [failed]

/-- A complete reference is known, or a binding is asked for it. -/
theorem Settles.complete {target : Partition} {known : ExportReference → Option String}
    {references : List ExportReference} {asked : List Creation} {accounts : List Account}
    (settles : Settles target known references asked accounts) {r : ExportReference}
    (member : r ∈ references) (complete : r.isComplete) :
    (∃ name, known r = some name) ∨ ∃ answer, ⟨target, .forReference r, answer⟩ ∈ asked := by
  induction settles with
  | none => cases member
  | skipped incomplete rest ih =>
    rcases List.mem_cons.1 member with rfl | later
    · exact absurd complete incomplete
    · exact ih later
  | reused _ found rest ih =>
    rcases List.mem_cons.1 member with rfl | later
    · exact .inl ⟨_, found⟩
    · exact ih later
  | created _ unknown rest ih | failed _ unknown rest ih =>
    rcases List.mem_cons.1 member with rfl | later
    · exact .inr ⟨_, List.mem_cons_self⟩
    · exact (ih later).imp_right fun ⟨answer, asks⟩ => ⟨answer, List.mem_cons_of_mem _ asks⟩

/-- Where the line is written, all references are settled and the created bindings were seen
bound. -/
theorem Course.of_told {result : Except Halt Report} (course : Course o noted result)
    (told : .told shown ∈ noted) :
    ∃ partition entry listing asked accounts coda,
      o.validate = .ok (partition, shown) ∧
      noted = listedNotes partition shown entry o.target listing asked coda ∧
      Settles o.target (known (given listing)) entry.exports asked accounts ∧
      (∀ note ∈ coda, Late note) ∧
      SeenBound o.target (madeNames (asked.map .creation)) (looks coda) ∧
      ((∃ report, result = .ok report) ↔ failures noted = [] ∧ refusals noted = []) := by
  cases course with
  | invalid invalid => cases told
  | missing valid e => simp at told
  | unsaid valid entry reason => simp at told
  | interrupted valid begins settles reason => simp at told
  | @settled partition name entry listing asked accounts coda _ valid settles ends =>
    have said : .told shown ∈ coda := by simpa using told
    obtain ⟨rfl, seen, good⟩ := ends.told said
    rw [settles.created_eq] at seen
    rw [settles.errors_eq, ← failures_listedNotes ends.late, List.map_eq_nil_iff] at good
    rw [refusals_listedNotes]
    exact ⟨partition, entry, listing, asked, accounts, coda, valid, rfl, settles, ends.late, seen,
      good⟩

end Told

section Runs

variable {δ : Type}

/-- The binding of a reference that was created, as it was seen in the last round of looks. -/
def CreatedAndSeen (o : Options) (noted : List Note) (r : ExportReference) : Prop :=
  ∃ made b, ⟨o.target, .forReference r, .ok made⟩ ∈ creations noted ∧
    b.reference = r ∧ b.phase = .bound ∧ ∃ last, last <:+ looks noted ∧
      last.map Look.place = (madeNames noted).map (o.target, ·) ∧
        ⟨o.target, made.metadata.name, .ok b⟩ ∈ last

/-- A binding that was created for a reference has it still when it is seen. -/
theorem seen_reference {z : Surroundings δ} {log : List Deed} {w w' : Premises δ}
    (follows : Program.Follows z.serve w log w') (known : ∀ c, .other c ∉ notes log)
    (first : List Note) {rest : List Note} (noted : notes log = first ++ rest) {target : Partition}
    {made b : ApiBinding} (creation : (target, made) ∈ Binding.made first)
    (look : .look ⟨target, made.metadata.name, .ok b⟩ ∈ rest) : b.reference = made.reference := by
  obtain ⟨before, later, rfl, rfl, rfl⟩ := List.filterMap_eq_append_iff.1 noted
  obtain ⟨v, early, late⟩ := follows.of_append
  obtain ⟨here, behind⟩ := other_not_mem_append.1 known
  have adds := Surroundings.adds_run z early here
  obtain ⟨added, t, more, found⟩ := Surroundings.look_served late behind look
  obtain ⟨b₁, there, kept⟩ := adds.there _ creation
  obtain ⟨b₂, still, again⟩ := more.kept there
  have same : some b₂ = some b := still.symm.trans (Memory.getBinding_eq_ok.1 found)
  cases same
  rw [(kept.trans again).still]

/-- A binding that was created is among those that were seen bound in the last round. -/
theorem createdAndSeen {z : Surroundings δ} {log : List Deed} {w w' : Premises δ}
    (follows : Program.Follows z.serve w log w') (known : ∀ c, .other c ∉ notes log) {o : Options}
    {partition : Partition} {name : String} {entry : CatalogEntry}
    {listing : Except StoreError (List ApiBinding)} {asked : List Creation} {coda : List Note}
    (noted : notes log = listedNotes partition name entry o.target listing asked coda)
    (late : ∀ note ∈ coda, Late note)
    (seen : SeenBound o.target (madeNames (asked.map .creation)) (looks coda))
    {r : ExportReference} {made : ApiBinding}
    (asks : ⟨o.target, .forReference r, .ok made⟩ ∈ asked) : CreatedAndSeen o (notes log) r := by
  have creation : (o.target, made) ∈ Binding.made (asked.map .creation) :=
    mem_made_of_creation ((creations_map asked).symm ▸ asks)
  have named : made.metadata.name ∈ madeNames (asked.map .creation) :=
    List.mem_map.2 ⟨_, creation, rfl⟩
  obtain ⟨last, b, ending, places, inside, bound⟩ := seen.last_look named
  have all : creations (notes log) = asked := by rw [noted, creations_listedNotes late]
  have own : made.reference = r := by
    have member : ⟨o.target, .forReference r, .ok made⟩ ∈ creations (notes log) := all ▸ asks
    exact (creation_given follows member rfl rfl).1
  have kept : b.reference = made.reference :=
    seen_reference follows known
      (.fetched partition name (.ok entry) :: .listed o.target listing :: asked.map .creation)
      noted creation (mem_looks_iff.1 (ending.subset inside))
  refine ⟨made, b, all ▸ asks, kept.trans own, bound, last, ?_, ?_, inside⟩
  · rw [noted, looks_listedNotes]
    exact ending
  · rw [noted, madeNames_listedNotes late]
    exact places

/-- Whatever calls are refused and whatever others move: where the line is written, each complete
reference had a binding before, or one that was created for it was seen bound at the last look, or
its creation has failed. The run ends well and there is no reference of the last kind exactly if
nothing has failed, the output included. -/
theorem bound_line_true_iff (z : Surroundings δ) {s : Memory} (reachable : s.Reachable) (d : δ)
    (patience : Nat) (o : Options) {shown : String}
    (told : .told shown ∈ notes (record z.serve (run patience o) ⟨s, d, 0⟩)) :
    let w : Premises δ := ⟨s, d, 0⟩
    let noted := notes (record z.serve (run patience o) w)
    ∃ partition entry, o.validate = .ok (partition, shown) ∧
      s.getEntry partition shown = .ok entry ∧
      (∀ r ∈ entry.exports, r.isComplete → (∃ name, s.Binds o.target r name) ∨
        CreatedAndSeen o noted r ∨ ∃ e, ⟨o.target, .forReference r, .error e⟩ ∈ creations noted) ∧
      (((∃ report, outcome z.serve (run patience o) w = .ok report) ∧ ∀ r ∈ entry.exports,
          r.isComplete → (∃ name, s.Binds o.target r name) ∨ CreatedAndSeen o noted r) ↔
        failures noted = [] ∧ refusals noted = []) := by
  intro w noted
  have follows : Program.Follows z.serve w _ _ := follows_record z.serve (run patience o) w
  have course : Course o noted _ := course_run (ends_record z.serve (run patience o) w)
  obtain ⟨partition, entry, listing, asked, accounts, coda, valid, noted_eq, settles, late, seen,
    good⟩ := course.of_told told
  obtain ⟨found, reuses⟩ := given_listed reachable.keyed.bindings follows noted_eq
  have all : creations noted = asked := by rw [noted_eq, creations_listedNotes late]
  have each (r : ExportReference) (member : r ∈ entry.exports) (complete : r.isComplete) :
      (∃ name, s.Binds o.target r name) ∨ CreatedAndSeen o noted r ∨
        ∃ e, ⟨o.target, .forReference r, .error e⟩ ∈ creations noted := by
    rcases settles.complete member complete with ⟨name, is_known⟩ | ⟨_ | made, asks⟩
    · exact .inl ⟨name, ((reuses r name).1 is_known).2.1⟩
    · exact .inr (.inr ⟨_, all ▸ asks⟩)
    · exact .inr (.inl (createdAndSeen follows course.calls noted_eq late seen asks))
  refine ⟨partition, entry, valid, found, each, ?_⟩
  rw [← good]
  refine and_iff_left_of_imp fun ended r member complete => ?_
  rcases each r member complete with held | created | ⟨e, failed⟩
  · exact .inl held
  · exact .inr created
  · have among := mem_failures_of_creation failed
    rw [(good.1 ended).1] at among
    cases among

namespace Sample

/-- Others move the created binding just before it is looked at. -/
def helpful : Surroundings Unit where
  backing := .memory
  around n := ⟨if n = 5 then [(.root, "dns-3", .bound)] else [], toString n, .ok (), .ofSeconds n,
    none⟩

end Sample

open Sample

/-- One of the references has a binding, and one is created for the other one. -/
theorem bound_line_true_sample :
    let noted := notes (record helpful.serve (run 1 hasty) (premises [certs, dns]))
    Note.told "platform" ∈ noted ∧ madeNames noted = ["dns-3"] ∧
      ∃ entry, (store [certs, dns]).getEntry .root "platform" = .ok entry ∧
        (∃ report, outcome helpful.serve (run 1 hasty) (premises [certs, dns]) = .ok report) ∧
        ∀ r ∈ entry.exports, r.isComplete →
          (∃ name, (store [certs, dns]).Binds .root r name) ∨ CreatedAndSeen hasty noted r := by
  intro noted
  have told : Note.told "platform" ∈ noted := by decide +kernel
  have reachable : (store [certs, dns]).Reachable :=
    ((Memory.Reachable.opened .empty).operated (.mutate (.putEntry _ _))).operated
      (.mutate (.putBinding _ _))
  obtain ⟨partition, entry, valid, found, -, bound⟩ :=
    bound_line_true_iff helpful reachable () 1 hasty told
  have place : hasty.validate.toOption = some (.root, "platform") := by decide +kernel
  rw [valid] at place
  cases place
  exact ⟨told, by decide +kernel, entry, found, bound.2 (by decide +kernel)⟩

/-- The only creation is refused. The line is written all the same, there is no binding, and the run
ends with the failure. -/
theorem bound_line_without_binding :
    let w := premises [dns]
    Note.told "platform" ∈ notes (record strained.serve (run 1 hasty) w) ∧
      reported (outcome strained.serve (run 1 hasty) w) = some [busy] ∧
      (after strained.serve (run 1 hasty) w).store.held .root dns = 0 := by
  decide +kernel

end Runs

end Binding
end ApiCatalog
