import ApiCatalog.Proofs.Reconcile.Stage
import ApiCatalog.Proofs.Watch.System
import ApiCatalog.Proofs.Watch.Trigger

/-!
# Requests on their way

What a change of the store leaves to be done for an entry, and what a sender has still to send for
it. A change either gives rise to an event that concerns the entry or does not matter to a pass over
it (`Announces.concerns_or_same`); a sender keeps what it has to send until it is in the queue
(`Sender.advance_spec`).
-/
namespace ApiCatalog

namespace Memory

def Stores (s : Memory) (partition : Partition) (entry : CatalogEntry) : Prop :=
  s.entries.get? (Stored.key partition entry) = some entry

theorem Stores.mem_listEntries {s : Memory} {partition : Partition} {entry : CatalogEntry}
    (stored : s.Stores partition entry) : entry ∈ s.listEntries partition := by
  refine Table.mem_values_filter.2 ⟨_, stored, ?_⟩
  rw [LawfulStored.key_partition]
  exact beq_self_eq_true partition

open Trigger in
/-- A change that matters to an entry is among the news. -/
theorem Announces.concerns_or_same {s s' : Memory} {news : List Event}
    (announces : Announces s s' news) {partition : Partition} {entry : CatalogEntry}
    (stored : s'.Stores partition entry) :
    (∃ e ∈ news, Concerns partition entry e) ∨
      s.Stores partition entry ∧ SameResolutions s s' none entry := by
  by_cases concerns : ∃ e ∈ news, Concerns partition entry e
  · exact .inl concerns
  · refine .inr ⟨?_, fun reference member => ?_⟩
    · rcases announces.entry stored with before | changed
      · exact before
      · exact absurd ⟨_, changed, .inl rfl⟩ concerns
    · unfold resolved?
      split
      next valid =>
        rw [announces.faults]
        rcases announces.exported ⟨⟨reference.path, valid⟩, none, reference.exportName⟩ with
          same | changed
        · simp only [same]
        · refine absurd ⟨_, changed, .inr ⟨rfl, ?_⟩⟩ concerns
          exact List.any_eq_true.2 ⟨reference, member, by simp⟩
      · rfl

end Memory

namespace Watch

open Memory Trigger

section Delivery

variable {partition : Partition} {entry : CatalogEntry} {s : Memory} {sender : Sender}

/-- A request for the entry is still to be sent, as long as the entry is stored. -/
def Delivers (partition : Partition) (entry : CatalogEntry) (sender : Sender) : Prop :=
  sender.Ensures (Shows partition entry) (Request.forEntry partition entry ∈ ·)

theorem shows_respond (stored : s.Stores partition entry) (call : Call) :
    Shows partition entry call (respond call s).1 := by
  cases call with
  | listEntries listed =>
    rintro rfl
    exact ⟨_, rfl, stored.mem_listEntries⟩
  | _ => exact trivial

theorem respond_listing (s : Memory) {call : Call} (listing : IsListing call) :
    (respond call s).2 = s := by
  cases call with
  | listEntries listed => rfl
  | _ => cases listing

/-- What a sender does in one move: it leaves the store as it is and takes nothing from the queue,
and what it had to send is sent or still to be sent. -/
theorem Sender.advance_spec (listing : sender.Asks IsListing) (s : Memory)
    (waiting : List Request) :
    ∃ sender' waiting', sender.advance s waiting = (sender', s, waiting') ∧
      sender'.Asks IsListing ∧ waiting ⊆ waiting' ∧
      ∀ {partition entry}, s.Stores partition entry → Delivers partition entry sender →
        Request.forEntry partition entry ∈ waiting' ∨ Delivers partition entry sender' := by
  cases sender with
  | ask call next =>
    refine ⟨next (respond call s).1, waiting, ?_, listing.2 _, fun _ => id, ?_⟩
    · rw [Sender.advance, respond_listing s listing.1]
    · intro partition entry stored delivers
      exact .inr (delivers _ (shows_respond stored call))
  | done requests =>
    cases requests with
    | nil => exact ⟨.done [], waiting, rfl, trivial, fun _ => id, fun _ delivers => .inr delivers⟩
    | cons request rest =>
      refine ⟨.done rest, waiting ++ [request], rfl, trivial, List.subset_append_left ..,
        fun _ delivers => ?_⟩
      rcases List.mem_cons.1 delivers with rfl | inside
      · exact .inl (List.mem_append_right _ List.mem_cons_self)
      · exact .inr inside

theorem run_respond_listing {α : Type} {program : Program Call.Answer α} (s : Memory)
    (listing : program.Asks IsListing) : (program.run respond s).2 = s := by
  induction program generalizing s with
  | done result => rfl
  | ask call next ih =>
    have first : (Program.ask call next).run respond s =
        (next (respond call s).1).run respond (respond call s).2 := rfl
    rw [first, respond_listing s listing.1]
    exact ih _ s (listing.2 _)

/-- What is to be sent is sent if nobody comes in between. -/
theorem Delivers.run (delivers : Delivers partition entry sender) (listing : sender.Asks IsListing)
    (stored : s.Stores partition entry) :
    Request.forEntry partition entry ∈ (sender.run respond s).1 := by
  induction sender with
  | done requests => exact delivers
  | ask call next ih =>
    have first : (Program.ask call next).run respond s =
        (next (respond call s).1).run respond (respond call s).2 := rfl
    rw [first, respond_listing s listing.1]
    exact ih _ (delivers _ (shows_respond stored call)) (listing.2 _)

end Delivery

end Watch
end ApiCatalog
