/-!
# Lengths of time

A `Duration` is a whole number of nanoseconds.
-/
namespace ApiCatalog

structure Duration where
  nanos : Nat
  deriving DecidableEq, Repr, Inhabited

namespace Duration

def zero : Duration := ⟨0⟩

def ofSeconds (n : Nat) : Duration := ⟨n * 1000000000⟩

def ofMillis (n : Nat) : Duration := ⟨n * 1000000⟩

def ofMicros (n : Nat) : Duration := ⟨n * 1000⟩

/-- The whole seconds in it. -/
def seconds (d : Duration) : Nat := d.nanos / 1000000000

/-- The whole milliseconds in it. -/
def millis (d : Duration) : Nat := d.nanos / 1000000

instance : Add Duration := ⟨fun a b => ⟨a.nanos + b.nanos⟩⟩

end Duration
end ApiCatalog
