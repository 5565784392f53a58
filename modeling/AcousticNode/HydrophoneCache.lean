import AcousticNode.Module.Hydrophone

/-!
# The hydrophone cache

The last aspects of the hydrophone that a node was told.  `HydrophoneUpdate` serves as the
cache itself: an aspect that was never told is absent.
-/

set_option autoImplicit false

namespace AcousticNode.HydrophoneUpdate

/-- Takes over the aspects of `update` and keeps the others. -/
def store (cache update : HydrophoneUpdate) : HydrophoneUpdate where
  status := update.status.or cache.status
  logging := update.logging.or cache.logging
  streaming := update.streaming.or cache.streaming
  stats := update.stats.or cache.stats

/-- An aspect that is asked for has to be there. -/
def demand {α : Type} (asked : Bool) (aspect : Aspect) (held : Option α) :
    Except Fault (Option α) :=
  if asked && held.isNone then .error (.notCached aspect)
  else .ok (if asked then held else none)

/-- The selected aspects.  The first of them that is absent is the fault. -/
def select (cache : HydrophoneUpdate) (m : AspectMask) : Except Fault HydrophoneUpdate := do
  let status ← demand (m.selects .status) .status cache.status
  let logging ← demand (m.selects .logging) .logging cache.logging
  let streaming ← demand (m.selects .streaming) .streaming cache.streaming
  let stats ← demand (m.selects .stats) .stats cache.stats
  return ⟨status, logging, streaming, stats⟩

/-- An aspect that has to be there. -/
def need {α : Type} (aspect : Aspect) : Option α → Except Fault α
  | some a => .ok a
  | none => .error (.notCached aspect)

/-- All four aspects.  The first one that is absent is the fault. -/
def complete (cache : HydrophoneUpdate) : Except Fault Hydrophone := do
  let status ← need .status cache.status
  let logging ← need .logging cache.logging
  let streaming ← need .streaming cache.streaming
  let stats ← need .stats cache.stats
  return ⟨status, logging, streaming, stats⟩

end AcousticNode.HydrophoneUpdate
