/-!
# Ordering callbacks

Callbacks are ordered by name. Each may ask to run immediately before or after
another, its anchor; an anchor that is not there is ignored.

The order is found in two passes. Placement goes through the callbacks as they were
registered and puts each next to its anchor, placing the anchor first, or at the end
if it has none; callbacks placed already keep their order. The topological pass then
picks, again and again, the first placed callback whose predecessors have all been
picked. It enforces the callbacks that ask for both, changes nothing that is in
order already, and gets stuck exactly on a cycle.
-/

namespace ScopedAccess

set_option autoImplicit false

/-- A callback's name and its wishes. -/
structure Station where
  name : String
  before : Option String
  after : Option String
  deriving DecidableEq

namespace Station

/-- An anchor, if there is a callback of that name. -/
def known (stations : List Station) (anchor : Option String) : Option String :=
  anchor.filter fun name => stations.any fun s => s.name = name

/-- The station with only those anchors that are there. -/
def resolved (stations : List Station) (s : Station) : Station :=
  ⟨s.name, known stations s.before, known stations s.after⟩

/-- Whether the first of two names has to come before the second on behalf of a
station. -/
def orders (s : Station) (first second : String) : Bool :=
  (s.name = first && s.before = some second) || (s.name = second && s.after = some first)

end Station

/-! ## Placement -/

/-- Put a name in front of an anchor, at the end if the anchor is not there. -/
def insertBefore (anchor name : String) : List String → List String
  | [] => [name]
  | n :: rest => if n = anchor then name :: n :: rest else n :: insertBefore anchor name rest

/-- Put a name behind an anchor, at the end if the anchor is not there. -/
def insertAfter (anchor name : String) : List String → List String
  | [] => [name]
  | n :: rest => if n = anchor then n :: name :: rest else n :: insertAfter anchor name rest

/-- The names placed so far in their order, and those whose placement has begun. -/
structure Placement where
  order : List String
  begun : List String

namespace Placement

def empty : Placement := ⟨[], []⟩

/-- Put a station next to its anchor, or at the end. Where it has two, the one to run
before counts. -/
def put (p : Placement) (s : Station) : Placement :=
  { p with
    order :=
      match s.before, s.after with
      | some b, _ => insertBefore b s.name p.order
      | none, some a => insertAfter a s.name p.order
      | none, none => p.order ++ [s.name] }

/-- Place a name after its anchor has been placed, unless it has begun. Every step
inwards begins another name, so their number bounds the depth. -/
def place (stations : List Station) : Nat → Placement → String → Placement
  | 0, p, _ => p
  | depth + 1, p, name =>
    if name ∈ p.begun then p
    else
      match stations.find? fun s => s.name = name with
      | none => p
      | some s =>
        let p : Placement := ⟨p.order, name :: p.begun⟩
        let p := match s.before.or s.after with
          | some anchor => place stations depth p anchor
          | none => p
        p.put s

/-- Place all stations, whose anchors are there. -/
def ofStations (stations : List Station) : List String :=
  (stations.foldl (fun p s => place stations (stations.length + 1) p s.name) empty).order

end Placement

/-! ## The topological pass -/

/-- The names that have to come before another. -/
def predecessors (stations : List Station) (name : String) : List String :=
  (stations.map Station.name).filter fun first => stations.any fun s => s.orders first name

/-- Pick names until none is ready: those picked in order, and those left over. -/
def pickReady (stations : List Station) : Nat → List String → List String →
    List String × List String
  | 0, picked, left => (picked, left)
  | fuel + 1, picked, left =>
    match left.find? fun n => (predecessors stations n).all fun m => picked.contains m with
    | some n => pickReady stations fuel (picked ++ [n]) (left.erase n)
    | none => (picked, left)

/-- The order of stations, or the names that a cycle keeps from being ordered, in the
order of registration. -/
def orderStations (stations : List Station) : Except (List String) (List String) :=
  let stations := stations.map (Station.resolved stations)
  let placed := Placement.ofStations stations
  let (picked, left) := pickReady stations placed.length [] placed
  if left.isEmpty then .ok picked
  else .error ((stations.map Station.name).filter fun n => left.contains n)

end ScopedAccess
