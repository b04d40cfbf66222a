import ApiCatalog.Reconcile.Outcome

/-!
# Setting up a reconciler

A reconciler works on one store under one policy. A setup may still lack the store.
-/
namespace ApiCatalog

structure Reconciler (σ : Type) where
  store : σ
  policy : SchemaPolicy

namespace Reconciler

/-- What is chosen so far. -/
structure Setup (σ : Type) where
  store : Option σ
  policy : SchemaPolicy

def setup {σ : Type} : Setup σ := ⟨none, .drop⟩

def Setup.build {σ : Type} (s : Setup σ) : Except PassError (Reconciler σ) :=
  match s.store with
  | some store => .ok ⟨store, s.policy⟩
  | none => .error (.invalidConfig "Resource store is required")

end Reconciler
end ApiCatalog
