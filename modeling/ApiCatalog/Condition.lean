import ApiCatalog.Time.Rfc3339

/-!
# Conditions

A condition states one aspect of an object's state and when that state was last entered. `set` puts
a condition into the slot of its type. If nothing but the time differs, the slot keeps its time, so
that deriving an unchanged state again gives an equal list.
-/
namespace ApiCatalog

inductive ConditionStatus where
  | yes
  | no
  | unknown
  deriving DecidableEq, Repr, Inhabited

inductive Severity where
  | unset
  | error
  | warning
  | info
  deriving DecidableEq, Repr, Inhabited

structure Condition where
  type : String
  status : ConditionStatus
  severity : Severity
  reason : Option String
  message : Option String
  lastTransition : Instant
  deriving DecidableEq

namespace Condition

/-- A condition that holds, without severity, reason and message. -/
def holding (type : String) (now : Instant) : Condition :=
  ⟨type, .yes, .unset, none, none, now⟩

/-- A condition that does not hold, and why. -/
def failing (type : String) (severity : Severity) (reason message : String) (now : Instant) :
    Condition :=
  ⟨type, .no, severity, some reason, some message, now⟩

/-- Equal in all but the time. -/
def sameState (a b : Condition) : Bool :=
  a.type == b.type && a.status == b.status && a.severity == b.severity && a.reason == b.reason &&
    a.message == b.message

/-- What a slot holds once the condition is put into it. -/
def after (c existing : Condition) : Condition :=
  if existing.sameState c then { c with lastTransition := existing.lastTransition } else c

end Condition

/-- The conditions of an object, in order of first appearance. -/
structure Conditions where
  slots : List Condition
  deriving DecidableEq, Inhabited

namespace Conditions

def empty : Conditions := ⟨[]⟩

/-- The first condition of the type. -/
def get? (cs : Conditions) (type : String) : Option Condition :=
  cs.slots.find? (·.type == type)

def isTrue (cs : Conditions) (type : String) : Bool :=
  (cs.get? type).any (·.status == .yes)

/-- The slots with the first one of the condition's type replaced, or with a new one at the end. -/
def put (c : Condition) : List Condition → List Condition
  | [] => [c]
  | slot :: rest => if slot.type == c.type then c.after slot :: rest else slot :: put c rest

def set (cs : Conditions) (c : Condition) : Conditions := ⟨put c cs.slots⟩

/-- Sets the conditions one after the other. -/
def ofList (list : List Condition) : Conditions := list.foldl set empty

end Conditions

namespace ConditionStatus

def display : ConditionStatus → String
  | yes => "True"
  | no => "False"
  | unknown => "Unknown"

def ofName? : String → Option ConditionStatus
  | "True" => some yes
  | "False" => some no
  | "Unknown" => some unknown
  | _ => none

end ConditionStatus

namespace Severity

def name : Severity → String
  | unset => ""
  | error => "Error"
  | warning => "Warning"
  | info => "Info"

def ofName? : String → Option Severity
  | "" => some unset
  | "Error" => some error
  | "Warning" => some warning
  | "Info" => some info
  | _ => none

end Severity

instance : Wire ConditionStatus where
  encode status := .text status.display
  decode strictness json := (json.constructor? strictness).bind ConditionStatus.ofName?

instance : Wire Severity where
  encode severity := .text severity.name
  decode strictness json := (json.constructor? strictness).bind Severity.ofName?

instance : Inhabited Condition := ⟨.holding "" default⟩

instance : Wire Condition where
  encode c := .object <|
    [("type", encode c.type), ("status", encode c.status), ("severity", encode c.severity)] ++
      Fields.emit "reason" c.reason c.reason.isNone ++
      Fields.emit "message" c.message c.message.isNone ++
      [("lastTransitionTime", encode c.lastTransition)]
  decode strictness json := do
    let fields ← json.record?
      ["type", "status", "severity", "reason", "message", "lastTransitionTime"]
    pure {
      type := ← Fields.required strictness fields "type"
      status := ← Fields.required strictness fields "status"
      severity := ← Fields.orElse strictness fields "severity" .unset
      reason := ← Fields.orElse strictness fields "reason" none
      message := ← Fields.orElse strictness fields "message" none
      lastTransition := ← Fields.required strictness fields "lastTransitionTime" }

instance : Wire Conditions where
  encode cs := encode cs.slots
  decode strictness json := (decode strictness json).map .mk

end ApiCatalog
