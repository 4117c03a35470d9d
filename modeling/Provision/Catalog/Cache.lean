import Provision.Catalog.Index
import Provision.Log.Record

/-!
# The catalog cache

Fetching a catalog is expensive and catalogs rarely change, so each is kept
under its family and session until it is dropped. Every catalog kept has a
serial number, one for each load that succeeded.
-/

namespace Provision

structure CachedCatalog where
  family : Int
  session : String
  catalog : Catalog
  serial : Nat

structure CatalogCache where
  entries : List CachedCatalog := []
  /-- How many loads have succeeded so far. -/
  loads : Nat := 0

namespace CatalogCache

def find? (cache : CatalogCache) (family : Int) (session : String) : Option CachedCatalog :=
  cache.entries.find? fun e => e.family == family && e.session == session

def holds (cache : CatalogCache) (family : Int) (session : String) : Bool :=
  (cache.find? family session).isSome

/-- Keeps a catalog that has just been loaded. -/
def add (cache : CatalogCache) (family : Int) (session : String) (catalog : Catalog) :
    CachedCatalog × CatalogCache :=
  let entry : CachedCatalog := { family, session, catalog, serial := cache.loads + 1 }
  (entry, { entries := cache.entries ++ [entry], loads := cache.loads + 1 })

/-- Whether dropping the catalogs of a family, or all, concerns an entry. -/
def concerns (family : Option Int) (entry : CachedCatalog) : Bool :=
  match family with
  | none => true
  | some f => entry.family == f

/-- Drops the catalogs of one family or all, and says how many they were. -/
def drop (cache : CatalogCache) (family : Option Int) : Nat × CatalogCache :=
  ((cache.entries.filter (concerns family)).length,
    { cache with entries := cache.entries.filter fun e => !concerns family e })

/-! ## Records -/

def loadingRecord (family : Int) : Log.Record :=
  { level := .info, source := .cache, message := s!"Loading catalog for family {family}"
    fields := [(.family, .int family)] }

def loadedRecord (family : Int) (catalog : Catalog) : Log.Record :=
  { level := .debug, source := .cache
    message := s!"Loaded {catalog.size} catalog items for family {family}" }

def droppedRecord (count : Nat) : Log.Record :=
  { level := .info, source := .cache, message := s!"Invalidated {count} cached catalog(s)" }

end CatalogCache

end Provision
