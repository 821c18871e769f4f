import Stratum.Act

/-!
# The cache

Values by key, kept until the first midnight after the last clear. A computation that is under way
has a flight: whoever asks for its key meanwhile joins the flight and does not compute again. A
clear drops the entries and the flights and starts a new generation, and what lands later from an
older generation is not kept. Each operation here is one atomic step.
-/

namespace Stratum

/-- Entries and flights by key, the number of flights so far, the number of clears, and the deadline
of the current generation. -/
structure Cache (K V : Type) where
  entries : List (K × V)
  flights : List (K × Nat)
  begun : Nat
  generation : Nat
  deadline : Option Moment

/-- What a clock can do to a cache: stand on a day after which none comes, or tell a time that has
no order with the deadline. -/
inductive ClockFault
  | lastDay
  | incomparable
  deriving DecidableEq, Repr

/-- The failure that a clock brings about. -/
def ClockFault.failure : ClockFault → Failure
  | .lastDay => .lastDay
  | .incomparable => .clocksDiffer

/-- What a look at a key gives: a value, a flight to join, or a flight of one's own. -/
inductive Lookup (V : Type)
  | hit (v : V)
  | joined (flight : Nat)
  | started (flight generation : Nat)

namespace Cache

variable {K V : Type} [DecidableEq K]

/-- No entry, no flight and no clear so far. -/
def empty : Cache K V := ⟨[], [], 0, 0, none⟩

/-- The topic of what a cache logs. -/
def topic : String := "CACHE"

/-- Says that the cache was cleared. -/
def clearLine : Line := ⟨.verbose, topic, "Config cache cleared"⟩

/-- Says that the cache expired. -/
def refreshLine : Line := ⟨.verbose, topic, "Daily config cache refresh"⟩

/-- Whether there is a value under a key. -/
def contains (c : Cache K V) (k : K) : Bool := (c.entries.lookup k).isSome

/-- The number of values. -/
def size (c : Cache K V) : Nat := c.entries.length

/-- Drops all entries and flights and starts a generation that ends at the next midnight. On the
last day there is none to end at, which is noticed after everything has been dropped. -/
def clear (c : Cache K V) (now : Moment) : Cache K V × Option ClockFault :=
  let dropped : Cache K V := { c with entries := [], flights := [], generation := c.generation + 1 }
  match now.nextMidnight? with
  | some midnight => ({ dropped with deadline := some midnight }, none)
  | none => (dropped, some .lastDay)

/-- Whether the clock has passed the deadline, or there is no deadline yet. -/
def isExpired (c : Cache K V) (now : Moment) : Except ClockFault Bool :=
  match c.deadline with
  | none => .ok true
  | some deadline =>
    if now.comparable deadline then .ok (!now.le deadline) else .error .incomparable

/-- Clears the cache if it is expired, and tells whether it did. -/
def refresh (c : Cache K V) (now : Moment) : Cache K V × Except ClockFault Bool :=
  match c.isExpired now with
  | .error fault => (c, .error fault)
  | .ok false => (c, .ok false)
  | .ok true =>
    match c.clear now with
    | (c, none) => (c, .ok true)
    | (c, some fault) => (c, .error fault)

/-- Looks a key up. Without a value and without a flight to join, a flight starts. -/
def lookup (c : Cache K V) (k : K) : Lookup V × Cache K V :=
  match c.entries.lookup k with
  | some v => (.hit v, c)
  | none =>
    match c.flights.lookup k with
    | some flight => (.joined flight, c)
    | none =>
      (.started c.begun c.generation,
        { c with flights := (k, c.begun) :: c.flights, begun := c.begun + 1 })

/-- The entries with a value put under a key. -/
def putEntry (k : K) (v : V) : List (K × V) → List (K × V)
  | [] => [(k, v)]
  | (j, w) :: rest => if j = k then (j, v) :: rest else (j, w) :: putEntry k v rest

/-- Lands a flight. Its value is kept if it has one and no clear came between. -/
def land (c : Cache K V) (k : K) (flight generation : Nat) (value : Option V) : Cache K V :=
  { c with
    flights := c.flights.filter fun (j, f) => !(j == k && f == flight)
    entries :=
      match value with
      | some v => if generation = c.generation then putEntry k v c.entries else c.entries
      | none => c.entries }

end Cache
end Stratum
