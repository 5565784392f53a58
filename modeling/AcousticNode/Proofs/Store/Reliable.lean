import AcousticNode.Proofs.Store.File

/-!
# Reliable stores

A store is reliable if saving takes place as a whole or not at all, as far as loading can tell.
It is steady if a save that has failed fails again.  The store in memory is both, read-only or
not, and so is the store in a file.
-/

set_option autoImplicit false

namespace AcousticNode

open ConfigurationStore (load save)

/-- What a node relies on when it saves a valid configuration. -/
class ReliableStore (σ : Type) [ConfigurationStore σ] : Prop where
  load_of_save_ok : ∀ {s s' : σ} {c : Configuration}, save s c = (.ok (), s') → load s' = .ok c
  load_of_save_error : ∀ {s s' : σ} {c : Configuration} {e : Fault},
    save s c = (.error e, s') → load s' = load s

instance : ReliableStore MemoryStore where
  load_of_save_ok := by
    intro s s' c h
    simp only [save] at h
    split at h
    · cases h
    · cases h
      rfl
  load_of_save_error := by
    intro s s' c e h
    simp only [save] at h
    split at h
    · cases h
      rfl
    · cases h

instance : ReliableStore FileStore where
  load_of_save_ok := FileStore.load_of_save_ok
  load_of_save_error := FileStore.load_of_save_error

/-- A store whose saves fail for a reason that stays. -/
class SteadyStore (σ : Type) [ConfigurationStore σ] : Prop where
  save_again : ∀ {s s' : σ} {c : Configuration} {e : Fault},
    save s c = (.error e, s') → save s' c = (.error e, s')

instance : SteadyStore MemoryStore where
  save_again := by
    intro s s' c e h
    have hreadOnly : s.readOnly = true := by
      simp only [save] at h
      split at h
      · assumption
      · cases h
    simp only [save, hreadOnly, if_true] at h
    cases h
    simp only [save, hreadOnly, if_true]

instance : SteadyStore FileStore := ⟨FileStore.save_save_of_error⟩

end AcousticNode
