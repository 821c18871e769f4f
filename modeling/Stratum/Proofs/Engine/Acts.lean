import Stratum.Proofs.Act
import Stratum.Proofs.Engine.Table

/-!
# What the acts of an engine do

The outcome of each act of an engine as a pair: its answer or failure, and the cache and store after
it. `EngineAct.run_fetch` is the getter's: it refreshes, looks the key up, and computes and lands if
nothing is there.
-/

namespace Stratum.EngineAct

/-- An act that leaves the cache alone changes the store only. -/
theorem run_ofAct {α : Type} (act : Act α) (s : EngineState) :
    (ofAct act).run.run s =
      ((act.run.run s.store).1, { s with store := (act.run.run s.store).2 }) := rfl

/-- What is made of an act's answer may be made of it before the cache is looked at. -/
theorem ofAct_bind_pure {α β : Type} (act : Act α) (f : α → β) :
    (do return f (← ofAct act)) = ofAct (do return f (← act)) := by
  funext s
  show ((ofAct act >>= fun a => pure (f a)) : EngineAct β).run.run s =
    (ofAct (act >>= fun a => pure (f a))).run.run s
  rw [Act.run_bind, run_ofAct, run_ofAct, Act.run_bind]
  rcases act.run.run s.store with ⟨e | a, store⟩ <;> rfl

/-- A computation that is observed does not fail. -/
theorem run_ofAct_observe (act : Act (Option Slot)) (s : EngineState) :
    (ofAct (fetch.observe act)).run.run s =
      (.ok (act.run.run s.store).1, { s with store := (act.run.run s.store).2 }) := rfl

/-- A step of the cache does not fail and leaves the store alone. -/
theorem run_onCache {α : Type} (f : Cache CacheKey Slot → α × Cache CacheKey Slot)
    (s : EngineState) :
    (onCache f).run.run s = (.ok (f s.cache).1, { s with cache := (f s.cache).2 }) := rfl

/-- A refresh tells the logger if it cleared the cache. -/
theorem run_refresh (now : Moment) (s : EngineState) :
    (refresh now).run.run s = match s.cache.refresh now with
      | (c, .error fault) => (.error fault.failure, { s with cache := c })
      | (c, .ok cleared) =>
        (.ok (), ⟨c, if cleared then s.store.say Cache.refreshLine else s.store⟩) := by
  unfold refresh
  rw [Act.run_bind, run_onCache]
  rcases s.cache.refresh now with ⟨c, fault | _ | _⟩ <;> rfl

/-- A clear tells the logger unless it fails. -/
theorem run_clear (w : Surroundings) (s : EngineState) :
    (Resolver.clear w).run.run s = match s.cache.clear w.now with
      | (c, some fault) => (.error fault.failure, { s with cache := c })
      | (c, none) => (.ok (), ⟨c, s.store.say Cache.clearLine⟩) := by
  unfold Resolver.clear
  rw [Act.run_bind, run_onCache]
  rcases s.cache.clear w.now with ⟨c, _ | fault⟩ <;> rfl

/-- A getter refreshes, looks its key up, and computes and lands if nothing is there. -/
theorem run_fetch (now : Moment) (key : CacheKey) (compute : Act (Option Slot))
    (s : EngineState) :
    (fetch now key compute).run.run s = match (refresh now).run.run s with
      | (.error e, s) => (.error e, s)
      | (.ok (), s) => match s.cache.lookup key with
        | (.hit v, c) => (.ok (some v), { s with cache := c })
        | (.joined _, c) => (.error .blocked, { s with cache := c })
        | (.started flight generation, c) => match compute.run.run s.store with
          | (.ok v, store) => (.ok v, ⟨c.land key flight generation v, store⟩)
          | (.error e, store) => (.error e, ⟨c.land key flight generation none, store⟩) := by
  unfold fetch
  rw [Act.run_bind]
  rcases (refresh now).run.run s with ⟨e | _, s⟩
  · rfl
  · dsimp only
    rw [Act.run_bind, run_onCache]
    rcases s.cache.lookup key with ⟨v | f | ⟨f, g⟩, c⟩
    · rfl
    · rfl
    · dsimp only
      rw [Act.run_bind, run_ofAct_observe]
      rcases compute.run.run s.store with ⟨e | v, store⟩ <;> rfl

end Stratum.EngineAct
