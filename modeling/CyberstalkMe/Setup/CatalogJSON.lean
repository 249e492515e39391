import CyberstalkMe.Setup.Catalog
import CyberstalkMe.Shared.Text

/-! # Snapshots of the catalog as JSON

What the encoder makes of a snapshot. The samples of an application without any are a nil slice.
-/
namespace CyberstalkMe.Setup

open Go Shared Foundations

def TitleSample.json (s : TitleSample) : Json ℤ :=
  .object
    [("title", .string s.title),
     ("first_seen", ofTime s.firstSeen),
     ("last_seen", ofTime s.lastSeen),
     ("count", .number s.count)]

def App.json (a : App) : Json ℤ :=
  .object
    [("process", .string a.process),
     ("first_seen", ofTime a.firstSeen),
     ("last_seen", ofTime a.lastSeen),
     ("count", .number a.count),
     ("samples", if a.samples = [] then .null else .ofList TitleSample.json a.samples),
     ("configurable", .bool a.configurable)]

def CatalogSnapshot.json (snap : CatalogSnapshot) : Json ℤ :=
  .object
    [("apps", .ofList App.json snap.apps),
     ("locked", .bool snap.locked),
     ("locked_seen", .number snap.lockedSeen),
     ("observations", .number snap.observations)]

def TitleSample.marshals (s : TitleSample) : Bool := Shared.marshals s.firstSeen && Shared.marshals s.lastSeen

def App.marshals (a : App) : Bool :=
  Shared.marshals a.firstSeen && Shared.marshals a.lastSeen && a.samples.all TitleSample.marshals

/-- Strict RFC 3339 can write every time in the snapshot. -/
def CatalogSnapshot.marshals (snap : CatalogSnapshot) : Bool := snap.apps.all App.marshals

/-- One line of the encoder, without its newline. -/
def CatalogSnapshot.encode (snap : CatalogSnapshot) : Option (List Char) :=
  if snap.marshals then some (text snap.json) else none

end CyberstalkMe.Setup
