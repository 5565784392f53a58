import AcousticNode.Configuration.Basic

/-!
# Configuration stores

Where a node keeps its configuration.  Loading only looks; saving may leave traces even if it
fails.
-/

set_option autoImplicit false

namespace AcousticNode

/-- A medium that holds a configuration. -/
class ConfigurationStore (σ : Type) where
  load : σ → Except Fault Configuration
  save : σ → Configuration → Except Fault Unit × σ

/-- A configuration in memory. -/
structure MemoryStore where
  config : Configuration
  /-- Whether every save is refused, as a full or missing card does. -/
  readOnly : Bool
  deriving DecidableEq

instance : ConfigurationStore MemoryStore where
  load s := .ok s.config
  save s c :=
    if s.readOnly then (.error (.configuration .readOnly), s) else (.ok (), { s with config := c })

/-- A stand-in for a store on a medium that comes and goes: its loads and its saves can be switched
off, each for itself.  No node keeps its configuration in one; it is there to see what a node does
when its own store fails. -/
structure SwitchedStore (σ : Type) where
  inner : σ
  loadOff : Bool
  saveOff : Bool

instance {σ : Type} [ConfigurationStore σ] : ConfigurationStore (SwitchedStore σ) where
  load s :=
    if s.loadOff then .error (.configuration .loadSwitchedOff)
    else ConfigurationStore.load s.inner
  save s c :=
    if s.saveOff then (.error (.configuration .saveSwitchedOff), s)
    else
      let (result, inner) := ConfigurationStore.save s.inner c
      (result, { s with inner := inner })

end AcousticNode
