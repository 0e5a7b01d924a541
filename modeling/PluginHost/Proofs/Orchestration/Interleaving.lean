import PluginHost.Orchestration.Run
/-!
Runs whose saves land while they go on.

A save is carried out in the background, so it may land at any moment after the configuration that made it,
and saves that are under way may overtake each other. A plugin comes near the store once, when its savedata
is loaded. So it is enough to say which saves land between one plugin and the next: one that lands while a
plugin runs may as well land just before or just after it. Main statement: a run whose saves are carried out
at its end is one of these interleavings.
-/

namespace PluginHost

/-- A plugin's turn in a run, with the world that it finds. -/
structure Turn (σ : Type) where
  found : World σ
  plugin : DiscoveredPlugin Activator

namespace Host

variable {σ : Type} (host : Host σ) (r : Registry Activator)

/-- The world after a save has been carried out, with the saves that are still under way. -/
def land (w : World σ) (save : String × Toml.Table) (rest : List (String × Toml.Table)) : World σ :=
  { w with store := (host.store.save w.store save.1 save.2).1, saves := rest }

/-- Plugins have their turns one after another, and between them saves land in any order. -/
inductive Interleaved : World σ → List (Turn σ) → World σ → Prop
  | done {w : World σ} : Interleaved w [] w
  | turn {w u : World σ} {p : DiscoveredPlugin Activator} {turns : List (Turn σ)} :
    Interleaved (host.runPlugin r w p).1 turns u → Interleaved w (⟨w, p⟩ :: turns) u
  | landing {w u : World σ} {turns : List (Turn σ)} {save : String × Toml.Table}
      {before after : List (String × Toml.Table)} (hsaves : w.saves = before ++ save :: after) :
    Interleaved (host.land w save (before ++ after)) turns u → Interleaved w turns u

/-- The records of turns, in order. -/
def recordsOf (turns : List (Turn σ)) : List RuntimeRecord :=
  turns.map fun t => (host.runPlugin r t.found t.plugin).2

/-- A run over a batch, up to a moment when every save has landed. No plugin has a turn in a run that is
    aborted. -/
inductive RunsTo (w : World σ) (packages : List Package) : List (Turn σ) → World σ → Prop
  | aborted {fault : RunFault} (hprepare : host.prepare w.hooks packages = .error fault) :
    RunsTo w packages [] w
  | completed {r : Registry Activator} {turns : List (Turn σ)} {u : World σ}
      (hprepare : host.prepare w.hooks packages = .ok r)
      (hplugins : turns.map (·.plugin) = r.discover) (hlanded : u.saves = []) :
    host.Interleaved r w turns u → RunsTo w packages turns u

variable {host r}

theorem Interleaved.trans {w v u : World σ} {turns more : List (Turn σ)}
    (h : host.Interleaved r w turns v) (hmore : host.Interleaved r v more u) :
    host.Interleaved r w (turns ++ more) u := by
  induction h with
  | done => exact hmore
  | turn _ ih => exact .turn (ih hmore)
  | landing hsaves _ ih => exact .landing hsaves (ih hmore)

variable (host r)

theorem runPlugins_interleaved (w : World σ) (plugins : List (DiscoveredPlugin Activator)) :
    ∃ turns : List (Turn σ), turns.map (·.plugin) = plugins ∧
      host.recordsOf r turns = (host.runPlugins r w plugins).2 ∧
      host.Interleaved r w turns (host.runPlugins r w plugins).1 := by
  induction plugins generalizing w with
  | nil => exact ⟨[], rfl, rfl, .done⟩
  | cons p rest ih =>
    obtain ⟨turns, hplugins, hrecords, hinterleaved⟩ := ih (host.runPlugin r w p).1
    refine ⟨⟨w, p⟩ :: turns, ?_, ?_, .turn hinterleaved⟩
    · rw [List.map_cons, hplugins]
    · rw [recordsOf, List.map_cons, runPlugins]
      exact congrArg _ hrecords

theorem carryOutSaves_interleaved (w : World σ) : host.Interleaved r w [] (host.carryOutSaves w) := by
  suffices h : ∀ saves store, host.Interleaved r { w with store, saves } []
      { w with
        store := saves.foldl (fun store s => (host.store.save store s.1 s.2).1) store
        saves := [] } from h w.saves w.store
  intro saves
  induction saves with
  | nil => exact fun _ => .done
  | cons save rest ih => exact fun store => .landing (List.nil_append _).symm (ih _)

/-- A run that is not aborted and whose saves are then carried out in order. -/
theorem run_runsTo {w : World σ} {packages : List Package} {r : Registry Activator}
    (hprepare : host.prepare w.hooks packages = .ok r) :
    ∃ turns, host.RunsTo w packages turns (host.carryOutSaves (host.run w packages).1) ∧
      host.recordsOf r turns = (host.run w packages).2.records := by
  obtain ⟨turns, hplugins, hrecords, hinterleaved⟩ := host.runPlugins_interleaved r w r.discover
  have hsaved := hinterleaved.trans (host.carryOutSaves_interleaved r _)
  rw [List.append_nil] at hsaved
  refine ⟨turns, .completed hprepare hplugins rfl ?_, ?_⟩
  · simp only [run, hprepare]
    exact hsaved
  · simp only [run, hprepare]
    exact hrecords

end Host

end PluginHost
