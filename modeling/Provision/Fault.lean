import Provision.Value.Basic

/-!
# Faults

Why a computation on catalogs, configuration and orders gives no result. A
fault is a cause with the data that belong to it; its wording is in one
function per family of causes.

Three families are told apart. A configuration fault lies in what the
operator configured, a resolution fault in what the catalog offers, and a
data fault in a text or a value that cannot be converted.
-/

namespace Provision

/-! ## Configuration -/

inductive ConfigurationFault where
  | malformedPattern (pattern : Value)
  | groupsMissing (pattern : String)
  | slotWithoutSource (role : String)
  | duplicateRoles (roles : List String)
  | malformedId (text : String) (family : Int)
  | noExtraDisks (family : Int)
  | controllerMissing (id : Option String) (family : Int)
  | notANumber (setting text : String)
  | notABoolean (setting text : String)
  | catalogMissing (family : Int)
  | familyTaken (family : Int)
  | foreignCache (family : Int)
  | unknownFamily (family : Int) (available : List Int)
  | credentialsMissing
  | cacheMismatch

namespace ConfigurationFault

def message : ConfigurationFault → String
  | malformedPattern pattern => "Invalid catalog pattern " ++ pattern.quotedText
  | groupsMissing pattern =>
    "Bare metal pattern needs core, speed and RAM groups: " ++ Text.quoted pattern
  | slotWithoutSource role => s!"Slot {role} needs a category or a description pattern"
  | duplicateRoles roles => "Duplicate slot roles: " ++ Text.bracketed (roles.map Text.quoted)
  | malformedId text family => "Invalid catalog id " ++ Text.quoted text ++ s!" in family {family}"
  | noExtraDisks family => s!"Family {family} does not take extra disks"
  | controllerMissing id family =>
    "No disk controller with id " ++ (Value.ofText? id).quotedText ++ s!" in family {family}"
  | notANumber setting text => s!"{setting} must be a number, got " ++ Text.quoted text
  | notABoolean setting text => s!"{setting} must be a boolean, got " ++ Text.quoted text
  | catalogMissing family => s!"Family {family} orders extras by item id and needs its catalog"
  | familyTaken family => s!"Server family already registered: {family}"
  | foreignCache family =>
    s!"Server family {family} uses a different catalog cache than the registry"
  | unknownFamily family available =>
    s!"Cannot find implementation for package id {family}. Available: "
      ++ Text.bracketed (available.map toString)
  | credentialsMissing => "SOFTLAYER_USERNAME and SOFTLAYER_API_KEY are required"
  | cacheMismatch => "catalog_cache must be the cache the registry memoizes catalogs in"

end ConfigurationFault

/-! ## Catalog resolution -/

inductive ResolutionFault where
  | noPrice (item : Int) (description : String)
  | noCpuItem
  | noRamItem
  | undescribedCpu (description pattern : String)
  | extraDiskMissing (id pattern : String)
  | standardItemMissing (item family : Int)
  deriving DecidableEq

namespace ResolutionFault

def message : ResolutionFault → String
  | noPrice item description => s!"Item {item} ({description}) has no prices"
  | noCpuItem => "Profile has no CPU item"
  | noRamItem => "Profile has no RAM item"
  | undescribedCpu description pattern =>
    s!"Failed matching [{description}] by regex {pattern}"
  | extraDiskMissing id pattern =>
    s!"Could not find extra disk item with id {id} in categories {pattern}"
  | standardItemMissing item family => s!"Could not find standard item {item} in family {family}"

end ResolutionFault

/-! ## Data -/

/-- Why a text or a value could not be converted. -/
inductive DataFault where
  /-- A text that does not write a number. -/
  | notNumeric
  /-- A value of a kind that the operation does not take. -/
  | wrongKind
  /-- A required field that is absent. -/
  | fieldMissing
  /-- A value that has no fields. -/
  | fieldless
  /-- A position beyond the end of a list. -/
  | outOfRange
  /-- A number beyond the range of doubles. -/
  | tooLarge
  /-- No list of items to build a catalog from. -/
  | noItems
  deriving DecidableEq

inductive Fault where
  | configuration (cause : ConfigurationFault)
  | resolution (cause : ResolutionFault)
  | data (cause : DataFault)

end Provision
