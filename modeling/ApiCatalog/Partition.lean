import ApiCatalog.Json.Wire
import ApiCatalog.Text.Separated

/-!
# Partition paths

A partition is named by a path of segments such as `root:catalog:cert-manager`. A segment has
lower-case ASCII letters, digits and hyphens, with a letter or digit at both ends. A `Partition` is
a path that satisfies this, so each one can be split at its last separator and extended by a
segment.
-/
namespace ApiCatalog

/-- A letter or digit that may stand at the end of a segment. -/
def isLabelChar (c : Char) : Bool := ('a' ≤ c && c ≤ 'z') || ('0' ≤ c && c ≤ '9')

/-- Lower-case letters, digits and hyphens, no hyphen at either end, not empty. -/
def isSegment (s : List Char) : Bool :=
  s.head?.any isLabelChar && s.getLast?.any isLabelChar && s.all fun c => isLabelChar c || c == '-'

/-- The segments of a path, at least one. -/
def pathSegments (path : String) : List (List Char) := Text.separated ':' path.toList

/-- Whether a text is a path of segments. -/
def IsPath (path : String) : Prop := (pathSegments path).all isSegment = true

instance (path : String) : Decidable (IsPath path) := inferInstanceAs (Decidable (_ = true))

structure Partition where
  path : String
  valid : IsPath path
  deriving DecidableEq

/-- What is wrong with a text that is no partition path. -/
inductive PathFault where
  | empty
  | segment (first : String)
  deriving DecidableEq, Repr

structure PathError where
  path : String
  fault : PathFault
  deriving DecidableEq, Repr

def PathFault.message : PathFault → String
  | .empty => "path is empty"
  | .segment first => "segment '" ++ first ++ "' must be lowercase alphanumerics or '-'"

def PathError.message (e : PathError) : String :=
  "invalid partition path '" ++ e.path ++ "': " ++ e.fault.message

namespace Partition

/-- Of several offending segments the first one is reported. -/
def ofString (path : String) : Except PathError Partition :=
  if path = "" then .error ⟨path, .empty⟩
  else if h : IsPath path then .ok ⟨path, h⟩
  else .error ⟨path, .segment (String.ofList (((pathSegments path).find? (!isSegment ·)).getD []))⟩

/-- The partition that all others are below. -/
def root : Partition := ⟨"root", by decide +kernel⟩

def segments (p : Partition) : List (List Char) := pathSegments p.path

def isRooted (p : Partition) : Bool := p.segments.head? == some "root".toList

/-- The last segment. -/
def base (p : Partition) : String := String.ofList (p.segments.getLast?.getD [])

/-- The path without its last segment, if it has more than one. -/
def parent? (p : Partition) : Option Partition :=
  match p.segments.dropLast with
  | [] => none
  | above => (ofString (String.ofList (Text.joined ':' above))).toOption

/-- The path extended by a segment. -/
def join (p : Partition) (child : String) : Except PathError Partition :=
  ofString (p.path ++ ":" ++ child)

/-- The enclosing partition and the last segment. -/
def split? (p : Partition) : Option (Partition × String) :=
  p.parent?.map fun above => (above, p.base)

instance : Inhabited Partition := ⟨root⟩

instance : Ord Partition := ⟨compareOn Partition.path⟩

instance : Std.TransOrd Partition := inferInstanceAs (Std.TransCmp (compareOn Partition.path))

theorem ext_path {a b : Partition} (h : a.path = b.path) : a = b := by
  cases a; cases b; cases h; rfl

instance : Std.LawfulEqOrd Partition where
  compare_self {a} := show compare a.path a.path = .eq from Std.ReflOrd.compare_self
  eq_of_compare {a b} h :=
    have hpath : compare a.path b.path = .eq := h
    ext_path (Std.LawfulEqCmp.eq_of_compare hpath)

end Partition

instance : Wire Partition where
  encode p := .text p.path
  decode _ json := json.text?.bind fun path => (Partition.ofString path).toOption

end ApiCatalog
