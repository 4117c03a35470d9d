import Provision.Catalog.Cache
import Provision.Progress
import Provision.Remote
import Provision.Tracker

/-!
# Runs

A run is what the program does between a request and its result. It calls the
remote side, sleeps, writes to the log, and keeps some state: the catalogs in
the cache, the transactions last seen, and the progress of the node being
provisioned. The `World` holds all of this, together with a trace of the calls
and sleeps, the latest in front.

A `Run` maps the world before to a result and the world after. A failure is a
result like any other: what happened before it stays. Time passes in sleeps
only, and only by as much as was asked for. Waiting is bounded by
`patience`, the number of checks that one wait may make.
-/

namespace Provision

structure World (τ : Type) where
  remote : Remote τ
  exchanges : List (Exchange τ) := []
  clock : τ
  sleeps : List τ := []
  records : List Log.Record := []
  guests : Tracker := {}
  servers : Tracker := {}
  cache : CatalogCache := {}
  progress : Progress := .fresh ""
  patience : Nat

namespace World

variable {τ : Type}

/-- The transactions last seen on nodes of a kind. -/
def tracker (w : World τ) : NodeKind → Tracker
  | .virtualGuest => w.guests
  | .hardwareServer => w.servers

def setTracker (w : World τ) (kind : NodeKind) (t : Tracker) : World τ :=
  match kind with
  | .virtualGuest => { w with guests := t }
  | .hardwareServer => { w with servers := t }

/-- The calls made so far, the first in front. -/
def calls (w : World τ) : List Call := w.exchanges.reverse.map Exchange.call

/-- The sleeps asked for so far, the first in front. -/
def pauses (w : World τ) : List τ := w.sleeps.reverse

/-- What was logged so far, the first in front. -/
def log (w : World τ) : List Log.Record := w.records.reverse

/-- The same world with nothing in its trace. -/
def untraced (w : World τ) : World τ := { w with exchanges := [], sleeps := [], records := [] }

end World

def Run (τ α : Type) : Type 1 := World τ → Except (Failure τ) α × World τ

namespace Run

variable {τ α β : Type}

@[always_inline, inline]
instance : Monad (Run τ) where
  pure a := fun w => (.ok a, w)
  bind x f := fun w =>
    match x w with
    | (.ok a, w) => f a w
    | (.error e, w) => (.error e, w)

/-! ## Failing and recovering -/

def fail (e : Failure τ) : Run τ α := fun w => (.error e, w)

/-- The result of a computation that touches nothing. -/
def ofExcept : Except (Failure τ) α → Run τ α
  | .ok a => pure a
  | .error e => fail e

def ofFault : Except Fault α → Run τ α
  | .ok a => pure a
  | .error f => fail (.fault f)

/-- Runs `x` and hands its result to `f`, a failure included. -/
def attempt (x : Run τ α) (f : Except (Failure τ) α → Run τ β) : Run τ β := fun w =>
  match x w with
  | (r, w) => f r w

/-- Runs `after` when `x` is over, and gives the result of `x`. -/
def ensuring (x : Run τ α) (after : Run τ Unit) : Run τ α :=
  attempt x fun r w => (r, (after w).2)

/-! ## Elementary actions -/

def read (f : World τ → α) : Run τ α := fun w => (.ok (f w), w)

def update (f : World τ → World τ) : Run τ Unit := fun w => (.ok (), f w)

/-- Calls the remote side. -/
def call (c : Call) : Run τ c.Reply := fun w =>
  match w.remote.answer c with
  | (reply, remote) => (reply, { w with remote, exchanges := ⟨c, reply⟩ :: w.exchanges })

def log (r : Log.Record) : Run τ Unit := update fun w => { w with records := r :: w.records }

/-- Writes several records, the first in front. -/
def logAll (rs : List Log.Record) : Run τ Unit :=
  update fun w => { w with records := rs.reverse ++ w.records }

/-- Lets time pass. -/
def pass [Duration τ] (d : τ) : Run τ Unit :=
  update fun w => { w with clock := Duration.add w.clock d }

def sleep [Duration τ] (d : τ) : Run τ Unit :=
  update fun w => { w with clock := Duration.add w.clock d, sleeps := d :: w.sleeps }

/-! ## Kept state -/

def observe (kind : NodeKind) (node : Int) (hostname : Value) (seen : Option Transaction) :
    Run τ Bool := do
  let (tracker, records) := (← read (·.tracker kind)).observe node hostname seen
  update (·.setTracker kind tracker)
  logAll records
  pure seen.isNone

def forget (kind : NodeKind) (node : Int) : Run τ Unit :=
  update fun w => w.setTracker kind ((w.tracker kind).forget node)

/-- The catalog of a family, loaded by `loader` unless it is in the cache. -/
def cachedCatalog (family : Int) (session : String) (loader : Run τ (Option (List Item))) :
    Run τ CachedCatalog := do
  match (← read (·.cache)).find? family session with
  | some entry => pure entry
  | none =>
    log (CatalogCache.loadingRecord family)
    let catalog ← ofFault (Catalog.ofItems? (← loader))
    log (CatalogCache.loadedRecord family catalog)
    let (entry, cache) := (← read (·.cache)).add family session catalog
    update ({ · with cache })
    pure entry

/-- Drops catalogs from the cache. -/
def dropCatalogs (family : Option Int) : Run τ Nat := do
  let (count, cache) := (← read (·.cache)).drop family
  update ({ · with cache })
  if count != 0 then log (CatalogCache.droppedRecord count)
  pure count

end Run

/-- Where a family's catalog comes from: it is given, or fetched once and then cached. -/
inductive CatalogSource where
  | given (catalog : Catalog)
  | cached (family : Int) (session : String)

def CatalogSource.fetch {τ : Type} : CatalogSource → Run τ Catalog
  | given catalog => pure catalog
  | cached family session => do
    let entry ← Run.cachedCatalog family session (Run.call (.listCatalogItems family))
    pure entry.catalog

end Provision
