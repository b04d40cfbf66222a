import ApiCatalog.Proofs.Client.Waiting

/-!
# The course of a binding

What counts of a run that binds an entry comes in a fixed order. Main statements: each reference of
the entry has its account, and each creation is made for one of them (`bindsAll`); and whatever is
answered, a run takes one of a few courses, which say how it ends (`course_run`).
-/
namespace ApiCatalog
namespace Binding

open Client

section References

/-- What becomes of a reference of an entry. -/
inductive Account where
  | skipped
  | settled (fate : Fate)
  deriving DecidableEq

def Account.fate? : Account → Option Fate
  | skipped => none
  | settled fate => some fate

/-- The accounts of references, and the bindings that are asked for on the way: an incomplete
reference is skipped, one that is known is reused, and for any other one a binding is asked for. -/
inductive Settles (target : Partition) (known : ExportReference → Option String) :
    List ExportReference → List Creation → List Account → Prop where
  | none : Settles target known [] [] []
  | skipped {reference references asked accounts} (incomplete : ¬ reference.isComplete)
      (rest : Settles target known references asked accounts) :
      Settles target known (reference :: references) asked (.skipped :: accounts)
  | reused {reference references asked accounts name} (complete : reference.isComplete)
      (found : known reference = some name)
      (rest : Settles target known references asked accounts) :
      Settles target known (reference :: references) asked (.settled (.reused name) :: accounts)
  | created {reference references asked accounts made} (complete : reference.isComplete)
      (unknown : known reference = none)
      (rest : Settles target known references asked accounts) :
      Settles target known (reference :: references)
        (⟨target, .forReference reference, .ok made⟩ :: asked)
        (.settled (.created made.metadata.name) :: accounts)
  | failed {reference references asked accounts e} (complete : reference.isComplete)
      (unknown : known reference = none)
      (rest : Settles target known references asked accounts) :
      Settles target known (reference :: references)
        (⟨target, .forReference reference, .error e⟩ :: asked)
        (.settled (.failed e) :: accounts)

/-- The name of the first binding of the reference. -/
def known (existing : List ApiBinding) (reference : ExportReference) : Option String :=
  (existing.find? (·.reference == reference)).map (·.metadata.name)

/-- How the references of an entry are bound: all of them, or those in front of a line that is
refused. -/
inductive BindsAll (target : Partition) (existing : List ApiBinding)
    (exports : List ExportReference) : List Note → Except Halt (List Fate) → Prop where
  | all {asked : List Creation} {accounts : List Account}
      (settles : Settles target (known existing) exports asked accounts) :
      BindsAll target existing exports (asked.map .creation)
        (.ok (accounts.filterMap Account.fate?))
  | refused {front : List ExportReference} {asked : List Creation} {accounts : List Account}
      (begins : front <+: exports) (settles : Settles target (known existing) front asked accounts)
      (reason : String) :
      BindsAll target existing exports (asked.map .creation ++ [.refused reason])
        (denied reason)

variable {target : Partition} {existing : List ApiBinding} {log : List Deed}

/-- A complete reference is reused, or a binding is asked for. -/
theorem ends_bindReference {reference : ExportReference} (complete : reference.isComplete)
    {result : Except Halt Fate}
    (ends : Ends (bindReference target existing reference) log result) :
    (∃ reason, notes log = [.refused reason] ∧ result = denied reason) ∨
      ∃ asked fate, notes log = asked.map .creation ∧ result = .ok fate ∧
        ∀ {references others accounts}, Settles target (known existing) references others accounts →
          Settles target (known existing) (reference :: references) (asked ++ others)
            (.settled fate :: accounts) := by
  unfold bindReference at ends
  dsimp only at ends
  cases there : existing.find? (·.reference == reference) with
  | some found =>
    have is_known : known existing reference = some found.metadata.name := by rw [known, there]; rfl
    rw [there] at ends
    have speaks := speaks_reuse ends
    generalize notes log = noted at speaks ⊢
    cases speaks with
    | said => exact .inr ⟨[], _, rfl, rfl, .reused complete is_known⟩
    | refused reason => exact .inl ⟨reason, rfl, rfl⟩
  | none =>
    have unknown : known existing reference = none := by rw [known, there]; rfl
    rw [there] at ends
    obtain ⟨reply, rest, rfl, after⟩ := ends.of_act_bind
    rw [notes_cons_of_some rfl]
    cases reply with
    | ok made =>
      obtain ⟨rfl, rfl⟩ := after.of_pure
      exact .inr ⟨[_], _, rfl, rfl, .created complete unknown⟩
    | error e =>
      obtain ⟨rfl, rfl⟩ := after.of_pure
      exact .inr ⟨[_], _, rfl, rfl, .failed complete unknown⟩

theorem bindsAll {exports : List ExportReference} {result : Except Halt (List Fate)}
    (ends : Ends (bindAll target existing (exports.filter (·.isComplete))) log result) :
    BindsAll target existing exports (notes log) result := by
  induction exports generalizing log result with
  | nil =>
    obtain ⟨rfl, rfl⟩ := ends.of_pure
    exact .all .none
  | cons reference rest ih =>
    cases complete : reference.isComplete with
    | false =>
      rw [List.filter_cons_of_neg (by simp [complete])] at ends
      have binds := ih ends
      generalize notes log = noted at binds ⊢
      cases binds with
      | all settles =>
        have whole := BindsAll.all (settles.skipped (ne_true_of_eq_false complete))
        exact whole
      | refused begins settles reason =>
        exact .refused (List.cons_prefix_cons.2 ⟨rfl, begins⟩)
          (settles.skipped (ne_true_of_eq_false complete)) reason
    | true =>
      rw [List.filter_cons_of_pos complete] at ends
      obtain ⟨h, halted, rfl⟩ | ⟨fate, first, later, rfl, one, ends⟩ := ends.of_bind
      · obtain ⟨reason, noted, same⟩ | ⟨_, _, -, same, -⟩ := ends_bindReference complete halted
        · cases same
          rw [noted]
          exact .refused List.nil_prefix .none reason
        · cases same
      obtain ⟨_, -, same⟩ | ⟨asked, _, noted, same, settles⟩ := ends_bindReference complete one
      · cases same
      cases same
      rw [notes_append, noted]
      obtain ⟨h, halted, rfl⟩ | ⟨fates, binding, last, rfl, all, done⟩ := ends.of_bind
      · have binds := ih halted
        generalize notes later = noted at binds ⊢
        cases binds with
        | refused begins others reason =>
          rw [← List.append_assoc, ← List.map_append]
          exact .refused (List.cons_prefix_cons.2 ⟨rfl, begins⟩) (settles others) reason
      · have binds := ih all
        obtain ⟨rfl, rfl⟩ := done.of_pure
        rw [List.append_nil]
        generalize notes binding = noted at binds ⊢
        cases binds with
        | all others =>
          rw [← List.map_append]
          exact .all (settles others)

end References

section Courses

/-- The client ends with the report if no error was collected. -/
def concluded (errors : List ClientError) (report : Report) : Except Halt Report :=
  match ClientError.all errors with
  | .ok () => .ok report
  | .error e => .error (.failed e)

/-- How the client goes on when all references are settled. -/
inductive Coda (o : Options) (entry : String) (names : List String) (errors : List ClientError)
    (report : Report) : List Note → Except Halt Report → Prop where
  | halted {noted : List Note} {h : Halt} (awaited : Awaited o entry names noted (.error h)) :
      Coda o entry names errors report noted (.error h)
  | unflushed {noted : List Note} (awaited : Awaited o entry names noted (.ok ()))
      (reason : String) :
      Coda o entry names errors report (noted ++ [.refused reason]) (denied reason)
  | concluded {noted : List Note} (awaited : Awaited o entry names noted (.ok ())) :
      Coda o entry names errors report noted (concluded errors report)

variable {o : Options} {log : List Deed}

theorem ends_conclude {errors : List ClientError} {report : Report} {result : Except Halt Report}
    (ends : Ends (do conclude errors; return report) log result) :
    log = [] ∧ result = concluded errors report := by
  cases errors with
  | nil =>
    obtain ⟨h, halted, rfl⟩ | ⟨_, first, rest, rfl, done, ends⟩ := ends.of_bind
    · cases halted.of_pure.2
    · obtain ⟨rfl, -⟩ := done.of_pure
      exact ends.of_pure
  | cons e errors =>
    obtain ⟨h, halted, rfl⟩ | ⟨_, first, rest, rfl, done, ends⟩ := ends.of_bind
    · obtain ⟨rfl, same⟩ := halted.of_fail
      cases same
      exact ⟨rfl, rfl⟩
    · cases done.of_fail.2

theorem coda {entry : String} {names : List String} {patience : Nat} {errors : List ClientError}
    {report : Report} {result : Except Halt Report}
    (ends : Ends (do await o entry names patience; flush; conclude errors; return report) log
      result) :
    Coda o entry names errors report (notes log) result := by
  obtain ⟨h, halted, rfl⟩ | ⟨_, waiting, rest, rfl, waited, ends⟩ := ends.of_bind
  · exact .halted (awaited halted)
  have before := awaited waited
  rw [notes_append]
  obtain ⟨h, halted, rfl⟩ | ⟨_, flushing, last, rfl, flushed, ending⟩ := ends.of_bind
  · obtain ⟨-, same⟩ | ⟨reason, rfl, same⟩ := halted.of_flush
    · cases same
    · cases same
      exact .unflushed before reason
  obtain ⟨rfl, -⟩ | ⟨reason, -, same⟩ := flushed.of_flush
  · obtain ⟨rfl, rfl⟩ := ends_conclude ending
    rw [show notes ([⟨.flush, .ok ()⟩] ++ []) = [] from rfl, List.append_nil]
    exact .concluded before
  · cases same

/-- The bindings that a listing has given; if it has failed there are none. -/
def given : Except StoreError (List ApiBinding) → List ApiBinding
  | .ok existing => existing
  | .error _ => []

def listErrors : Except StoreError (List ApiBinding) → List ClientError
  | .ok _ => []
  | .error e => [.store e]

/-- The notes of a run that has got past the listing. -/
abbrev listedNotes (partition : Partition) (name : String) (entry : CatalogEntry)
    (target : Partition) (listing : Except StoreError (List ApiBinding)) (asked : List Creation)
    (rest : List Note) : List Note :=
  .fetched partition name (.ok entry) :: .listed target listing :: (asked.map .creation ++ rest)

/-- What counts of a run, and how the run ends. -/
inductive Course (o : Options) : List Note → Except Halt Report → Prop where
  | invalid {e : ClientError} (invalid : o.validate = .error e) : Course o [] (.error (.failed e))
  | missing {partition : Partition} {name : String} (valid : o.validate = .ok (partition, name))
      (e : StoreError) :
      Course o [.fetched partition name (.error e)]
        (.error (.failed (.entryNotFound partition.path name)))
  | unsaid {partition : Partition} {name : String} (valid : o.validate = .ok (partition, name))
      (entry : CatalogEntry) (reason : String) :
      Course o [.fetched partition name (.ok entry), .refused reason] (denied reason)
  | interrupted {partition : Partition} {name : String} {entry : CatalogEntry}
      {listing : Except StoreError (List ApiBinding)} {front : List ExportReference}
      {asked : List Creation} {accounts : List Account}
      (valid : o.validate = .ok (partition, name)) (begins : front <+: entry.exports)
      (settles : Settles o.target (known (given listing)) front asked accounts)
      (reason : String) :
      Course o (listedNotes partition name entry o.target listing asked [.refused reason])
        (denied reason)
  | settled {partition : Partition} {name : String} {entry : CatalogEntry}
      {listing : Except StoreError (List ApiBinding)} {asked : List Creation}
      {accounts : List Account} {coda : List Note} {result : Except Halt Report}
      (valid : o.validate = .ok (partition, name))
      (settles : Settles o.target (known (given listing)) entry.exports asked accounts)
      (ends : let fates := accounts.filterMap Account.fate?
        let created := fates.filterMap Fate.created?
        Coda o name created (listErrors listing ++ fates.filterMap Fate.error?)
          ⟨created, fates.filterMap Fate.reused?,
            (entry.exports.filter fun r => !r.isComplete).map (·.display)⟩ coda result) :
      Course o (listedNotes partition name entry o.target listing asked coda) result

/-- What is left to do when the bindings have been listed. -/
def settle (o : Options) (name : String) (entry : CatalogEntry)
    (listing : Except StoreError (List ApiBinding)) (patience : Nat) : Client Report := do
  let fates ← bindAll o.target (given listing) (entry.exports.filter (·.isComplete))
  let created := fates.filterMap Fate.created?
  await o name created patience
  flush
  conclude (listErrors listing ++ fates.filterMap Fate.error?)
  return ⟨created, fates.filterMap Fate.reused?,
    (entry.exports.filter fun r => !r.isComplete).map (·.display)⟩

/-- A run ends before the bindings are listed, or goes on to settle the references. -/
inductive Opening (o : Options) (patience : Nat) : List Note → Except Halt Report → Prop where
  | invalid {e : ClientError} (invalid : o.validate = .error e) :
      Opening o patience [] (.error (.failed e))
  | missing {partition : Partition} {name : String} (valid : o.validate = .ok (partition, name))
      (e : StoreError) :
      Opening o patience [.fetched partition name (.error e)]
        (.error (.failed (.entryNotFound partition.path name)))
  | unsaid {partition : Partition} {name : String} (valid : o.validate = .ok (partition, name))
      (entry : CatalogEntry) (reason : String) :
      Opening o patience [.fetched partition name (.ok entry), .refused reason] (denied reason)
  | listed {partition : Partition} {name : String} {log : List Deed} {result : Except Halt Report}
      (valid : o.validate = .ok (partition, name)) (entry : CatalogEntry)
      (listing : Except StoreError (List ApiBinding))
      (settles : Ends (settle o name entry listing patience) log result) :
      Opening o patience
        (.fetched partition name (.ok entry) :: .listed o.target listing :: notes log) result

theorem opening_run {patience : Nat} {result : Except Halt Report}
    (ends : Ends (run patience o) log result) : Opening o patience (notes log) result := by
  unfold run at ends
  cases valid : o.validate with
  | error e =>
    rw [valid] at ends
    obtain ⟨rfl, rfl⟩ := ends.of_fail
    exact .invalid valid
  | ok parts =>
    obtain ⟨partition, name⟩ := parts
    rw [valid] at ends
    obtain ⟨fetched, rest, rfl, answered⟩ := ends.of_act_bind
    rw [notes_cons_of_some rfl]
    cases fetched with
    | error e =>
      obtain ⟨rfl, rfl⟩ := answered.of_fail
      exact .missing valid e
    | ok entry =>
      obtain ⟨h, halted, rfl⟩ | ⟨skipped, first, later, rfl, said, going⟩ := answered.of_bind
      · have speaks := speaks_skip halted
        generalize notes rest = noted at speaks ⊢
        cases speaks
        exact .unsaid valid entry _
      have speaks := speaks_skip said
      rw [notes_append]
      generalize notes first = noted at speaks ⊢
      cases speaks
      obtain ⟨listing, last, rfl, settling⟩ := going.of_act_bind
      rw [List.nil_append, notes_cons_of_some rfl]
      cases listing with
      | ok existing => exact .listed valid entry (.ok existing) settling
      | error e => exact .listed valid entry (.error e) settling

theorem course_listed {partition : Partition} {name : String}
    (valid : o.validate = .ok (partition, name)) (entry : CatalogEntry)
    (listing : Except StoreError (List ApiBinding)) {patience : Nat} {result : Except Halt Report}
    (ends : Ends (settle o name entry listing patience) log result) :
    Course o (.fetched partition name (.ok entry) :: .listed o.target listing :: notes log)
      result := by
  obtain ⟨h, halted, rfl⟩ | ⟨fates, binding, rest, rfl, bound, ending⟩ := ends.of_bind
  · have binds := bindsAll halted
    generalize notes log = noted at binds ⊢
    cases binds with
    | refused begins settles reason => exact .interrupted valid begins settles reason
  · have binds := bindsAll bound
    rw [notes_append]
    generalize notes binding = noted at binds ⊢
    cases binds with
    | all settles => exact .settled valid settles (coda ending)

/-- Whatever is answered, a run takes one of these courses. -/
theorem course_run {patience : Nat} {result : Except Halt Report}
    (ends : Ends (run patience o) log result) : Course o (notes log) result := by
  have opening := opening_run ends
  generalize notes log = noted at opening ⊢
  cases opening with
  | invalid invalid => exact .invalid invalid
  | missing valid e => exact .missing valid e
  | unsaid valid entry reason => exact .unsaid valid entry reason
  | listed valid entry listing settles => exact course_listed valid entry listing settles

end Courses
end Binding
end ApiCatalog
