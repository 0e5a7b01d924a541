import PluginHost.Savedata.Store
/-!
Stores that fail at times.
-/

namespace PluginHost.SavedataStore

variable {σ : Type}

/-- A store that counts loads. The loads with given numbers fail, and all saves of given
    identities. -/
def failing (store : SavedataStore σ) (loads : List Nat) (saves : List String) :
    SavedataStore (Nat × σ) where
  load s identity :=
    if s.1 + 1 ∈ loads then
      ((s.1 + 1, s.2), .error (.savedata (identity ++ ": unreadable document")))
    else
      let (state, result) := store.load s.2 identity
      ((s.1 + 1, state), result)
  save s identity data :=
    if identity ∈ saves then (s, .error (.savedata (identity ++ ": unwritable document")))
    else
      let (state, result) := store.save s.2 identity data
      ((s.1, state), result)

end PluginHost.SavedataStore
