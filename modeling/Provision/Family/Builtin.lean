import Provision.Family.Spec

/-!
# The supported families

Six packages: virtual guests (46), bare metal instances (50), single Xeon 3200
(23) and 2000 (142) servers, and dual Xeon 5500 servers with few (42) or many
(44) disks. The four server packages share their slots; a later variant of a
package is the earlier one with some fields replaced.
-/

namespace Provision.FamilySpec

variable {τ : Type} [Duration τ]

/-! ## Standard extras

Address, monitoring, notifications, bandwidth, remote console, vulnerability
scanner and network management, as price ids or on older packages as item
ids. -/

def guestPrices : List Int := [21, 55, 57, 58, 1800, 905, 418, 420]

def xeon2000Prices : List Int := [15, 49, 51, 52, 504, 11, 307, 309]

def xeon3200Items : List Int := [15, 49, 51, 52, 504, 487, 307, 309]

def dualXeonItems : List Int := [15, 49, 51, 52, 504, 307, 309]

/-! ## Timing -/

/-- Whole hours for every stage, with a wait of its own for approval and for the login. -/
def timing (hours approval login : Int) (interval cap : τ) : StagePolicies τ :=
  let policy (n : Int) : StagePolicy τ :=
    { timeout := Duration.ofInt (n * 3600), interval, cap := some cap
      backoff := StagePolicy.usualBackoff }
  { orderApproved := policy approval
    transactionsStarted := policy hours
    transactionsEnded := policy hours
    loginReady := policy login
    poweredOff := StagePolicies.usualPowerOff }

/-- Servers take long, so they are looked at every five to ten seconds. -/
def serverTiming (hours approval login : Int) : StagePolicies τ :=
  timing hours approval login (Duration.ofInt 5) (Duration.ofInt 10)

/-! ## Rules -/

/-- The slots of the server packages. -/
def serverSlots : Except Fault (List Slot) :=
  [("cpu", "server"), ("ram", "ram"), ("disk0", "disk0"), ("uplink", "port_speed"),
    ("bandwidth", "bandwidth")].mapM fun (role, category) => Slot.make role (some category) none false

/-- The descriptions of primary disks of a type, and those on the storage network in any case. -/
def primaryDiskPattern? (type : String) : Option String :=
  if type == "" then none else some (".*" ++ type ++ ".*|.*SAN.*")

def guestRules (c : Config τ) : Except Fault Rules := do
  let cpu ← Slot.make "cpu" none (some c.cpuPattern) false
  let ram ← Slot.make "ram" (some "ram") none false
  let disk0 ← Slot.make "disk0" (some "guest_disk0") (primaryDiskPattern? c.disk0Type) false
  let uplink ← Slot.make "uplink" (some "port_speed") none false
  let bandwidth ← Slot.make "bandwidth" (some "bandwidth") none true
  let rule ← CpuRule.makeCapacity CpuRule.defaultSpeedPattern 2
  Rules.make [cpu, ram, disk0, uplink, bandwidth] rule
    { bootDisk := "guest_disk0"
      disks := "guest_disk[0-9]"
      strategy := .multi
      extraDisks := some "guest_disk[1-5]"
      extraDiskIds := Price.idTexts c.externalDiskIds }

def bareMetalRules : Except Fault Rules := do
  let slots ← [("cpu", "server_core"), ("disk0", "disk0"), ("uplink", "port_speed")].mapM
    fun (role, category) => Slot.make role (some category) none false
  let rule ← CpuRule.makeBareMetal CpuRule.defaultBareMetalPattern
  Rules.make slots rule { bootDisk := "disk0", disks := "disk[0-9]+", ramFromCpu := true }

def singleXeonRules : Except Fault Rules := do
  let slots ← serverSlots
  Rules.make slots (.fixed 4 2.6) { bootDisk := "disk0", disks := "disk[0-9]+" }

def dualXeonRules (c : Config τ) : Except Fault Rules := do
  let slots ← serverSlots
  Rules.make slots (.fixed 8 2.4)
    { bootDisk := "disk0"
      disks := "disk[0-9]+"
      extraDisks := some "disk([1-9]|1[01])"
      extraDiskIds := Price.idTexts c.externalDiskIds
      controllerCategory := some "disk_controller"
      controllerId := some c.controllerId }

/-! ## Families -/

def virtualGuest (c : Config τ) : Except Fault (FamilySpec τ) := do
  let rules ← guestRules c
  pure
    { family := 46, name := "virtual guest", kind := .virtualGuest, rules
      policies := timing 1 1 1 (Duration.ofTenths 1) (Duration.ofTenths 10)
      extraPrices := guestPrices
      requiresApproval := false
      supportsSuspend := true
      supportsPowerOff := true }

def bareMetal : Except Fault (FamilySpec τ) := do
  let rules ← bareMetalRules
  pure
    { family := 50, name := "bare metal instance", kind := .hardwareServer, rules
      policies := serverTiming 10 10 10
      extraPrices := guestPrices }

def singleXeon3200 : Except Fault (FamilySpec τ) := do
  let rules ← singleXeonRules
  pure
    { family := 23, name := "single Xeon 3200 series", kind := .hardwareServer, rules
      policies := serverTiming 10 10 10
      extraItems := xeon3200Items }

def singleXeon2000 : Except Fault (FamilySpec τ) := do
  let spec ← singleXeon3200
  pure
    { spec with
      family := 142
      name := "single Xeon 2000 series"
      extraPrices := xeon2000Prices
      extraItems := [] }

def dualXeon5500 (c : Config τ) : Except Fault (FamilySpec τ) := do
  let rules ← dualXeonRules c
  pure
    { family := 42, name := "dual Xeon 5500 series", kind := .hardwareServer, rules
      policies := serverTiming 50 50 10
      extraItems := dualXeonItems
      hourly := false }

def dualXeon5500MultiDisk (c : Config τ) : Except Fault (FamilySpec τ) := do
  let spec ← dualXeon5500 c
  pure
    { spec with
      family := 44
      name := "dual Xeon 5500 series, multiple disks"
      rules := { spec.rules with strategy := .multi } }

/-- The families under a configuration, before its settings are applied. -/
def builders (c : Config τ) : List (Except Fault (FamilySpec τ)) :=
  [virtualGuest c, bareMetal, singleXeon3200, singleXeon2000, dualXeon5500 c,
    dualXeon5500MultiDisk c]

/-- A family with the settings of a configuration applied. -/
def build (c : Config τ) : Except Fault (FamilySpec τ) → Except (Failure τ) (FamilySpec τ)
  | .error fault => .error (.fault fault)
  | .ok spec => (spec.configured c).mapError .policy

/-- All supported families under a configuration. -/
def supported (c : Config τ) : Except (Failure τ) (List (FamilySpec τ)) :=
  (builders c).mapM (build c)

end Provision.FamilySpec
