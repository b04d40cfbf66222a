import ApiCatalog.Proofs.Reconcile.FilePass
import ApiCatalog.Proofs.Reconcile.Meaning
import ApiCatalog.Proofs.Store.Agreement

/-!
# The slot of the verdict

A pass puts its verdict into the first slot of the type and looks at no other one. Lists with two
conditions of a type cannot be built by setting conditions, but they can be read from a file. Main
statement: after a pass the verdict is the only condition of its type exactly if the entry came with
at most one (`one_verdict_iff`); a second one that was read stays (`second_verdict_stays`).
-/
namespace ApiCatalog
namespace Memory

/-- A pass over the store ends well and leaves `s'`, in memory alone or with a state file. -/
inductive Passed (policy : SchemaPolicy) (now : Instant) (request : Request) (s s' : Memory) :
    Prop where
  | inMemory {outcome : Outcome} :
      s.pass policy now request = (.ok outcome, s') → Passed policy now request s s'
  | withFile {path : String} {disk disk' : FileStore.Disk} {outcome : Outcome} :
      FileStore.pass path policy now request s disk = ((.ok outcome, s'), disk') →
        Passed policy now request s s'

variable {policy : SchemaPolicy} {now : Instant} {request : Request} {s s' : Memory}

theorem Passed.pass_eq (passed : Passed policy now request s s') :
    (s.pass policy now request).2 = s' := by
  cases passed with
  | inMemory ended => rw [ended]
  | withFile ended => rw [FileStore.pass_ok ended]

theorem ofType_set_verdict (cs : Conditions) (unresolved : List String) (now : Instant) :
    ∃ time, (cs.set (verdict unresolved now)).ofType "APIExportValid" =
      verdict unresolved time :: (cs.ofType "APIExportValid").tail := by
  have own := cs.ofType_set_self (verdict unresolved now)
  rw [verdict_type] at own
  rw [own]
  cases cs.ofType "APIExportValid" with
  | nil => exact ⟨now, rfl⟩
  | cons old rest => exact ⟨_, by rw [after_verdict, List.tail_cons]⟩

/-- What a pass leaves are the conditions that it found, with its verdict set. -/
theorem Passed.conditions (passed : Passed policy now request s s') (reachable : s.Reachable)
    {entry : CatalogEntry} (found : s.getEntry request.partition request.name = .ok entry) :
    ∃ stored, s'.getEntry request.partition request.name = .ok stored ∧
      stored.status.conditions =
        entry.status.conditions.set (verdict (s.unresolved request.nameSpace entry) now) := by
  obtain ⟨outcome, after, stored, ended, -, there, status⟩ :=
    pass_gives_meaning reachable found policy now
  have same : after = s' := by rw [← passed.pass_eq, ended]
  subst same
  refine ⟨stored, there, ?_⟩
  rw [status, meaning, judged_eq_put]
  rfl

/-- Setting conditions and making them of a list never gives a type two conditions; reading them
does if two are listed, and all that can be listed is read. After a pass that ends well its verdict
is the first condition of its type, and what else the entry had of this type is still there. So the
verdict is the only one exactly if the entry had at most one. -/
theorem one_verdict_iff (cs : Conditions) (list : List Condition) (strictness : Strictness) :
    (Conditions.ofList list).OneEach ∧ ((list.foldl .set cs).OneEach ↔ cs.OneEach) ∧
    decode strictness (encode cs) = some cs ∧
    ∀ {policy now request s s' entry}, s.Reachable →
      s.getEntry request.partition request.name = .ok entry →
      Passed policy now request s s' → ∃ stored time,
        s'.getEntry request.partition request.name = .ok stored ∧
        stored.status.conditions.ofType "APIExportValid" =
          verdict (s.unresolved request.nameSpace entry) time ::
            (entry.status.conditions.ofType "APIExportValid").tail ∧
        (stored.status.conditions.ofType "APIExportValid" =
            [verdict (s.unresolved request.nameSpace entry) time] ↔
          (entry.status.conditions.ofType "APIExportValid").length ≤ 1) ∧
        (stored.status.conditions.OneEach ↔ entry.status.conditions.OneEach) := by
  refine ⟨Conditions.oneEach_ofList list, Conditions.oneEach_foldl_set cs list,
    decode_encode strictness cs, ?_⟩
  intro policy now request s s' entry reachable found passed
  obtain ⟨stored, there, conditions⟩ := passed.conditions reachable found
  obtain ⟨time, slots⟩ := ofType_set_verdict entry.status.conditions
    (s.unresolved request.nameSpace entry) now
  rw [← conditions] at slots
  have alone : (entry.status.conditions.ofType "APIExportValid").tail = [] ↔
      (entry.status.conditions.ofType "APIExportValid").length ≤ 1 := by
    rw [← List.length_eq_zero_iff, List.length_tail, Nat.sub_eq_zero_iff_le]
  refine ⟨stored, time, there, slots, ?_, ?_⟩
  · rw [slots, List.cons.injEq, and_iff_right rfl]
    exact alone
  · rw [conditions]
    exact Conditions.oneEach_set _ _

/-- One of its references does not resolve, and it had no condition before. -/
theorem one_verdict_sample :
    ∃ s' stored time, Sample.store.pass .drop .epoch Sample.request =
        (.ok (.statusUpdated 3 ["root/gadgets"]), s') ∧
      s'.getEntry .root "tools" = .ok stored ∧
      stored.status.conditions.ofType "APIExportValid" = [verdict ["root/gadgets"] time] := by
  have ended : Sample.store.pass .drop .epoch Sample.request =
      (.ok (.statusUpdated 3 ["root/gadgets"]),
        (Sample.store.pass .drop .epoch Sample.request).2) :=
    Prod.ext (by decide +kernel) rfl
  obtain ⟨-, -, -, passes⟩ := one_verdict_iff .empty [] .lenient
  obtain ⟨stored, time, there, -, alone, -⟩ :=
    passes Sample.reachable Sample.found (.inMemory ended)
  have unresolved : Sample.store.unresolved none Sample.stored = ["root/gadgets"] := by
    decide +kernel
  refine ⟨_, stored, time, ended, there, ?_⟩
  rw [← unresolved]
  exact alone.2 (by decide)

namespace Sample

/-- The entry has two conditions of one type, each about a reference that it no longer has. -/
def twice : CatalogEntry where
  metadata := ⟨"tools", "", none, 1⟩
  exports := []
  description := ""
  status := ⟨[], [], ⟨[verdict ["root:a/x"] .epoch, verdict ["root:b/y"] .epoch]⟩⟩

def file : Content := .document (encode (Snapshot.mk [⟨.root, twice⟩] [] []))

end Sample

/-- The second condition of the type is still there after the pass, and says the opposite. -/
theorem second_verdict_stays :
    ∃ s s' stored,
      FileStore.opened "state" (.ok Sample.file) = .ok s ∧
      s.pass .drop .epoch Sample.request = (.ok (.statusUpdated 2 []), s') ∧
      s'.getEntry .root "tools" = .ok stored ∧
      stored.status.conditions.ofType "APIExportValid" =
        [verdict [] .epoch, verdict ["root:b/y"] .epoch] := by
  refine ⟨_, _, { Sample.twice with
    metadata := ⟨"tools", "", none, 2⟩
    status := ⟨[], [], ⟨[verdict [] .epoch, verdict ["root:b/y"] .epoch]⟩⟩ },
    FileStore.opened_document "state" _, Prod.ext ?_ rfl, ?_, ?_⟩
  · decide +kernel
  · exact getEntry_eq_ok.2 (by decide +kernel)
  · decide

end Memory
end ApiCatalog
