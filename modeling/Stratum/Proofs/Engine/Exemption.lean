import Stratum.Proofs.Engine.Ledger
import Stratum.Proofs.Engine.Merging

/-!
# Exempt configs

A provider of managed values leaves the configs of exempt names as they are: they are answered as if
there were no provider, whatever its values are, and the logger is told that they were skipped. Over
any other config it lays its values, if the config is found and can be used. So it is in every
session (`Session.exemption_exact`).
-/

namespace Stratum

/-! ## Acts that skip a merge -/

/-- The line about a config that gets no managed values. -/
def Resolver.exemptLine (name : String) : Line :=
  ⟨.debug, Overlay.topic, "Skipping merge for exempt config " ++ Text.escape name⟩

namespace Act

variable {α β : Type} {config : Option String} {x y : Act α}

/-- An act comes to what another one comes to and makes the same objects. It tells the same lines,
and behind them perhaps that the config was skipped. -/
def Skips (config : Option String) (x y : Act α) : Prop :=
  ∀ st, ∃ told, (told = [] ∨ told = config.toList.map Resolver.exemptLine) ∧
    x.run.run st =
      ((y.run.run st).1, { (y.run.run st).2 with log := (y.run.run st).2.log ++ told })

/-- An act skips nothing that it does itself. -/
theorem skips_self (config : Option String) (x : Act α) : Skips config x x := by
  intro st
  refine ⟨[], .inl rfl, ?_⟩
  rw [List.append_nil]
  rfl

/-- What follows and tells nothing makes no difference. -/
theorem Skips.bind {f : α → Act β} (h : Skips config x y) (hf : ∀ a, (f a).Silent) :
    Skips config (x >>= f) (y >>= f) := by
  intro st
  obtain ⟨told, htold, hrun⟩ := h st
  refine ⟨told, htold, ?_⟩
  rw [run_bind, run_bind, hrun]
  rcases y.run.run st with ⟨e | a, st₁⟩
  · rfl
  · obtain ⟨r, heap, hf⟩ := hf a st₁.heap
    dsimp only
    rw [hf, hf st₁.log]

end Act

namespace Resolver

open Act (Skips skips_self silent_pure)

variable {s : Search} {o : Overlay} {t : FileTree} {name : String}

/-- The config of an exempt name is resolved as without a provider. -/
theorem skips_resolveMap (hname : o.isExempt name = true) (hint : String) :
    Skips (some name) ((Resolver.mk s o).resolveMap t name hint)
      ((Resolver.mk s Overlay.nothing).resolveMap t name hint) := by
  intro st
  rw [run_resolveMap o]
  rcases ((Resolver.mk s Overlay.nothing).resolveMap t name hint).run.run st with
    ⟨e | _ | config, st₁⟩
  · exact ⟨[], .inl rfl, by simp⟩
  · exact ⟨[], .inl rfl, by simp⟩
  · refine ⟨[exemptLine name], .inr rfl, ?_⟩
    dsimp only
    unfold Provider.overlaid Overlay.provider
    simp [hname]
    rfl

/-- So it is as an object. -/
theorem skips_resolveObject (hname : o.isExempt name = true) (shape : Shape) (hint : String) :
    Skips (some name) ((Resolver.mk s o).resolveObject t name shape hint)
      ((Resolver.mk s Overlay.nothing).resolveObject t name shape hint) := by
  rw [resolveObject_eq, resolveObject_eq]
  refine (skips_resolveMap hname hint).bind fun found => ?_
  rcases found with _ | config
  · exact silent_pure none
  · exact (shape.silent_build config).bind fun s => silent_pure (some s)

end Resolver

section Requests

open Act (Skips skips_self silent_pure)

variable {s : Search} {o : Overlay} {t : FileTree}

/-- A getter of an exempt config finds what it finds without a provider. -/
theorem Getter.skips_resolve (g : Getter) (hg : ∀ name ∈ g.config?, o.isExempt name = true) :
    Skips g.config? (g.resolve t ⟨s, o⟩) (g.resolve t ⟨s, Overlay.nothing⟩) := by
  cases g with
  | string filename hint => exact skips_self _ _
  | map name hint => exact Resolver.skips_resolveMap (hg name rfl) hint
  | object name shape hint => exact Resolver.skips_resolveObject (hg name rfl) shape.shape hint

/-- So does a request past the cache. -/
theorem Probe.skips_resolve (p : Probe) (hp : ∀ name ∈ p.config?, o.isExempt name = true) :
    Skips p.config? (p.resolve t ⟨s, o⟩) (p.resolve t ⟨s, Overlay.nothing⟩) := by
  cases p with
  | mapNoCache name hint | resolveMap name hint =>
    exact (Resolver.skips_resolveMap (hp name rfl) hint).bind fun found => silent_pure _
  | resolveObject name shape hint =>
    exact (Resolver.skips_resolveObject (hp name rfl) shape hint).bind fun found => silent_pure _
  | stream filename hint | resolveString filename hint | locate filename hint =>
    exact skips_self _ _

end Requests

/-! ## Managed values that look alike -/

/-- The name of the config whose answer is under a key. -/
def CacheKey.config? : CacheKey → Option String
  | .string _ _ => none
  | .map name _ => some name
  | .object name _ _ => some name

/-- The name of the config that a request is for, if it is for one. -/
def Request.config? : Request → Option String
  | .get g => g.config?
  | .probe p => p.config?
  | .clear => none

/-- The key of a getter is for the same config. -/
theorem Getter.config?_key (g : Getter) : g.key.config? = g.config? := by
  cases g <;> rfl

namespace Managed

open Cache (heard heard_all)

variable {p : Line → Bool} {exempt : List String} {m m' : Managed}

/-- Two providers' values make no difference to what is found for exempt names, as far as somebody
notices who listens to some of the lines. -/
structure AlikeOn (p : Line → Bool) (exempt : List String) (m m' : Managed) : Prop where
  getter : ∀ s t (g : Getter), (∀ name ∈ g.config?, name ∈ exempt) →
    heard p (g.reading m s t) = heard p (g.reading m' s t)
  probe : ∀ s t (q : Probe), (∀ name ∈ q.config?, name ∈ exempt) →
    heard p (q.reading m s t) = heard p (q.reading m' s t)

/-- Whatever the values are, the same is found for the names that are exempt. -/
theorem alikeOn_values {heap heap' : Heap} {slot slot' : Slot}
    (alone : heap.IsDomain (heap.reach slot)) (alone' : heap'.IsDomain (heap'.reach slot'))
    (exempt : List String) : AlikeOn (fun _ => true) exempt (.values heap slot alone exempt)
      (.values heap' slot' alone' exempt) := by
  -- On both grounds the provider skips the name, and that is all that matters of it.
  have hexempt : ∀ {config : Option String}, (∀ name ∈ config, name ∈ exempt) →
      ∀ name ∈ config, ∀ config : Slot, Act.Anew
        (fun k => ∀ name ∈ exempt, k.overlay.isExempt name = true)
        (fun k => k.overlay.provider.overlaid name (config.shift k.size))
        fun n => Option.map (Slot.shift n) := fun hconfig name hname config =>
    Overlay.anew_overlaid_of_exempt (fun k hk => hk name (hconfig name hname)) config
  have hground : ∀ (h : Heap) (s : Slot) (hs : h.IsDomain (h.reach s)), ∀ name ∈ exempt,
      (Managed.values h s hs exempt).ground.overlay.isExempt name = true :=
    fun h s hs name hname => List.contains_iff_mem.mpr hname
  refine ⟨fun s t g hg => ?_, fun s t q hq => ?_⟩
  · rw [heard_all, heard_all]
    exact g.reading_congr (hexempt hg) (hground heap slot alone) (hground heap' slot' alone')
  · rw [heard_all, heard_all]
    exact q.reading_congr (hexempt hq) (hground heap slot alone) (hground heap' slot' alone')

/-- Whether a line is not about the config of an exempt name that was skipped. -/
def listens (exempt : List String) (l : Line) : Bool :=
  decide (∀ name ∈ exempt, l ≠ Resolver.exemptLine name)

/-- Who does not listen to what is said of skipped configs notices no difference. -/
theorem heard_of_skips {α β : Type} {config : Option String} {x y : Act α} {read : Heap → α → β}
    {st : Store} (h : Act.Skips config x y) (hconfig : ∀ name ∈ config, name ∈ exempt)
    (hst : st.log = []) :
    heard (listens exempt) (x.reading read st) = heard (listens exempt) (y.reading read st) := by
  obtain ⟨told, htold, hrun⟩ := h st
  have hquiet : told.filter (listens exempt) = [] := by
    refine List.filter_eq_nil_iff.mpr fun l hl => ?_
    obtain rfl | rfl := htold
    · cases hl
    · obtain ⟨name, hname, rfl⟩ := List.mem_map.mp hl
      have hmem := hconfig name (Option.mem_toList.mp hname)
      simpa [listens] using ⟨name, hmem, rfl⟩
  unfold Act.reading heard
  rw [hrun, hst]
  rcases y.run.run st with ⟨r, st'⟩
  simp [hquiet]

/-- For exempt names the same is found as without a provider. -/
theorem alikeOn_nothing {heap : Heap} {slot : Slot} (alone : heap.IsDomain (heap.reach slot))
    (exempt : List String) :
    AlikeOn (listens exempt) exempt (.values heap slot alone exempt) .nothing := by
  have hground : ∀ name ∈ exempt,
      (Managed.values heap slot alone exempt).ground.overlay.isExempt name = true :=
    fun name hname => List.contains_iff_mem.mpr hname
  refine ⟨fun s t g hg => ?_, fun s t q hq => ?_⟩
  · rw [← g.reading_eq (k := ⟨.nothing, (Managed.values heap slot alone exempt).ground.store⟩)
      (.nothing _)]
    exact heard_of_skips (g.skips_resolve fun name hname => hground name (hg name hname)) hg rfl
  · rw [← q.reading_eq (k := ⟨.nothing, (Managed.values heap slot alone exempt).ground.store⟩)
      (.nothing _)]
    exact heard_of_skips (q.skips_resolve fun name hname => hground name (hq name hname)) hq rfl

end Managed

/-! ## Sessions that look alike -/

namespace Ledger

open Cache (heard)

variable {p : Line → Bool} {exempt : List String} {m m' : Managed} {l l' : Ledger}

/-- The keys of exempt configs, in every generation. -/
def OfExempt (exempt : List String) (_ : Nat) (key : CacheKey) : Prop :=
  ∀ name ∈ key.config?, name ∈ exempt

/-- Ledgers that agree on the keys of exempt configs go on agreeing if their values make no
difference to what is found for those. -/
theorem AgreeOn.run (h : AgreeOn (OfExempt exempt) l l')
    (halike : l.managed.AlikeOn p exempt l'.managed) (steps : List SessionStep) :
    AgreeOn (OfExempt exempt) (l.run steps) (l'.run steps) ∧
      (l.run steps).managed = l.managed ∧ (l'.run steps).managed = l'.managed := by
  induction steps generalizing l l' with
  | nil => exact ⟨h, rfl, rfl⟩
  | cons a rest ih =>
    have hstep : AgreeOn (OfExempt exempt) (l.step a) (l'.step a) := by
      refine h.step (p := p) (fun generation g t hkey => ?_) a
      exact halike.getter l.search t g fun name hname => hkey name (g.config?_key ▸ hname)
    have halike' : (l.step a).managed.AlikeOn p exempt (l'.step a).managed := by
      rwa [l.managed_step, l'.managed_step]
    obtain ⟨hrest, hm, hm'⟩ := ih hstep halike'
    exact ⟨hrest, hm.trans (l.managed_step a), hm'.trans (l'.managed_step a)⟩

/-- Ledgers that agree on the keys of exempt configs answer alike for those. -/
theorem AgreeOn.serve (h : AgreeOn (OfExempt exempt) l l')
    (halike : l.managed.AlikeOn p exempt l'.managed) (q : Request)
    (hq : ∀ name ∈ q.config?, name ∈ exempt) :
    heard p (l.serve q).1 = heard p (l'.serve q).1 := by
  cases q with
  | get g =>
    refine (h.get g fun _ => halike.getter l.search l.world.files g hq).1 fun name hname => ?_
    exact hq name (show name ∈ g.config? from g.config?_key ▸ hname)
  | probe q =>
    have hreading := halike.probe l.search l.world.files q hq
    unfold Ledger.serve
    rwa [← h.search, ← h.world]
  | clear => exact congrArg (heard p) h.clear.1

end Ledger

/-! ## How configs are treated -/

/-- How the provider on a ground treats configs, wherever they are looked for. -/
structure Ground.Treats (u : Heap) (values : Slot) (exempt : List String) (k : Ground) : Prop where
  /-- The config of an exempt name is resolved as without the provider. -/
  skips_map : ∀ s t name hint, name ∈ exempt →
    Act.Skips (some name) ((Resolver.mk s k.overlay).resolveMap t name hint)
      ((Resolver.mk s Overlay.nothing).resolveMap t name hint)
  /-- So it is as an object. -/
  skips_object : ∀ s t name (shape : Shape) hint, name ∈ exempt →
    Act.Skips (some name) ((Resolver.mk s k.overlay).resolveObject t name shape hint)
      ((Resolver.mk s Overlay.nothing).resolveObject t name shape hint)
  /-- Over any other config the values are laid, if it is found and can be used. -/
  receives : ∀ s t name hint, name ∉ exempt →
    Overlay.Receives u values
      (((Resolver.mk s Overlay.nothing).resolveMap t name hint).run.run k.store)
      (((Resolver.mk s k.overlay).resolveMap t name hint).run.run k.store)
  /-- An object is built from what the name is resolved to as a mapping. -/
  builds : ∀ s t name (shape : Shape) hint,
    ((Resolver.mk s k.overlay).resolveObject t name shape hint).run.run k.store =
      match ((Resolver.mk s k.overlay).resolveMap t name hint).run.run k.store with
      | (.error e, st) => (.error e, st)
      | (.ok none, st) => (.ok none, st)
      | (.ok (some config), st) =>
        (((shape.build config).run.run st).1.map some, ((shape.build config).run.run st).2)

/-- A provider of managed values treats configs so, wherever the values stand. -/
theorem Ground.Holds.treats {heap u : Heap} {slot values : Slot}
    {alone : heap.IsDomain (heap.reach slot)} {exempt : List String} {k : Ground}
    (hk : k.Holds (.values heap slot alone exempt)) {C : Set Addr} {place : Addr → Option Addr}
    (hm : u.Mirrors C place heap) (hvalues : values.In C) (hmoved : values.moved place = slot) :
    k.Treats u values exempt := by
  have hexempt : ∀ name ∈ exempt, k.overlay.isExempt name = true := fun name hname =>
    (hk.isExempt name).trans (List.contains_iff_mem.mpr hname)
  refine ⟨?_, ?_, ?_, ?_⟩
  · exact fun s t name hint hname => Resolver.skips_resolveMap (hexempt name hname) hint
  · exact fun s t name shape hint hname =>
      Resolver.skips_resolveObject (hexempt name hname) shape hint
  · intro s t name hint hname
    have hreceives := Resolver.receives_resolveMap (s := s) (t := t) hk hname hint
    rw [← hmoved] at hreceives
    exact hreceives.of_moved hm hvalues
  · intro s t name shape hint
    rw [Resolver.resolveObject_eq, Act.run_bind]
    rcases ((Resolver.mk s k.overlay).resolveMap t name hint).run.run k.store with
      ⟨e | _ | config, st⟩
    · rfl
    · rfl
    · dsimp only
      rw [Act.run_bind]
      rcases (shape.build config).run.run st with ⟨e | slot, st'⟩ <;> rfl

namespace Session

open Cache (heard heard_all)
open Managed (listens alikeOn_values alikeOn_nothing)

variable {p : Line → Bool} {exempt : List String} {m m' : Managed} {k k' : Ground}

/-- Sessions whose values make no difference to what is found for exempt names answer alike for
those, after whatever they were asked before. -/
theorem heard_reads (hk : k.Holds m) (hk' : k'.Holds m') (halike : m.AlikeOn p exempt m')
    (s : Search) (w : Surroundings) (steps : List SessionStep) (q : Request)
    (hq : ∀ name ∈ q.config?, name ∈ exempt) :
    heard p (((opened s k w).run Engine.serve steps).2.reads q) =
      heard p (((opened s k' w).run Engine.serve steps).2.reads q) := by
  obtain ⟨hledger, hsound⟩ := (sound_opened hk s w).run steps
  obtain ⟨hledger', hsound'⟩ := (sound_opened hk' s w).run steps
  have hstart : Ledger.AgreeOn (Ledger.OfExempt exempt) ((opened s k w).ledger m)
      ((opened s k' w).ledger m') := ⟨rfl, rfl, .empty _⟩
  obtain ⟨hagree, hm, hm'⟩ := hstart.run halike steps
  rw [← hledger, ← hledger'] at hagree
  have hserve := hagree.serve halike q hq
  rwa [(hsound.serve q).1, (hsound'.serve q).1] at hserve

/-- In every session a provider treats configs by their names only. Two sessions whose providers
differ in their values answer alike for exempt names, with the same lines, and a session without a
provider answers so too, with the same lines but for those about configs that were skipped. Each
session answers as its ledger does, from what is found in the files; wherever the provider stands, a
config of an exempt name is resolved as without it, and over any other config its values are laid,
if it is found and can be used; their names can be told if they are texts. -/
theorem exemption_exact (st st' st₀ : Store) (source source' : Slot) (exempt : List String)
    (s : Search) (w : Surroundings) (steps : List SessionStep) :
    let m := Managed.supplied st.heap (some (source, exempt))
    let k := Ground.supplied st (some (source, exempt))
    let after := fun k : Ground => ((opened s k w).run Engine.serve steps).2
    let σ := after k
    let σ' := after (Ground.supplied st' (some (source', exempt)))
    let σ₀ := after (Ground.supplied st₀ none)
    (∀ q, (∀ name ∈ Request.config? q, name ∈ exempt) →
      σ.reads q = σ'.reads q ∧
        heard (listens exempt) (σ.reads q) = heard (listens exempt) (σ₀.reads q)) ∧
    (∀ q, σ.reads q = (((⟨s, m, .empty, w⟩ : Ledger).run steps).serve q).1) ∧
    (σ.resolver.provider = k.overlay ∧ Ground.Holds m ⟨k.overlay, σ.store⟩) ∧
    (∀ k : Ground, k.Holds m → k.Treats st.heap source exempt) ∧
    ((∀ key ∈ (Overlay.managedEntries source st.heap).keys, ∃ s, key = .text s) →
      ∃ text, Overlay.appliedText (Overlay.managedEntries source st.heap).keys = .ok text) := by
  intro m k after σ σ' σ₀
  have hk := Ground.holds_supplied st (some (source, exempt))
  have hk' := Ground.holds_supplied st' (some (source', exempt))
  have hk₀ := Ground.holds_supplied st₀ none
  obtain ⟨hledger, hsound⟩ := (sound_opened hk s w).run steps
  have hcopy := Heap.empty.mirrors_copyFrom st.heap source
  -- For the names in the list both sessions read alike, and so does one without managed values but
  -- for the lines about skipped configs.
  refine ⟨fun q hq => ⟨?_, ?_⟩, fun q => ?_, ⟨hsound.provider, hsound.holds⟩,
    fun k hk => Ground.Holds.treats hk hcopy (st.heap.in_reach source) rfl,
    Overlay.exists_appliedText⟩
  · have halike := heard_reads hk hk' (alikeOn_values _ _ exempt) s w steps q hq
    rwa [heard_all, heard_all] at halike
  · exact heard_reads hk hk₀ (alikeOn_nothing _ exempt) s w steps q hq
  · have hserve := congrArg Prod.fst (hsound.serve q).1
    rw [hledger] at hserve
    exact hserve.symm

end Session

namespace SkippedConfig

open LaterExtension (search plain number?)

/-- A mapping to be laid over configs, with another one in it. -/
def values : Slot × Heap := Heap.empty.store
  (.map [(.text "k", .map [(.text "a", .atom (.int 9))]), (.text "m", .atom (.int 4))])

/-- A session that found a config of one name. -/
def session (supply : Option (Slot × List String)) : Session (Cache CacheKey Slot) :=
  ((Session.opened search (Ground.supplied ⟨values.2, []⟩ supply)
    ⟨plain, .inMay 0 12 0⟩).run Engine.serve [.ask (.probe (.mapNoCache "x" ""))]).2

/-- The config of that name through the cache. -/
def request : Request := .get (.map "x" "")

/-- The numbers in the mapping that is read: one that is overridden, the one beside it, one of the
config only, and a managed one. -/
def numbers (answer : Except Failure Reading × List Line) : List (Option Int) :=
  match answer.1 with
  | .ok (.value (some v)) => [["k", "a"], ["k", "b"], ["c"], ["m"]].map (number? v)
  | _ => []

/-- The config has the managed values unless its name is exempt; then it is answered as with other
values and as without any. -/
theorem exempt_unlike_merged :
    numbers ((session (some (values.1, []))).reads request) = [some 9, some 2, some 3, some 4] ∧
    numbers ((session (some (values.1, ["x"]))).reads request) = [some 1, some 2, some 3, none] ∧
    (∀ name ∈ request.config?, name ∈ ["x"]) ∧
    (session (some (values.1, ["x"]))).reads request =
      (session (some (.atom .null, ["x"]))).reads request ∧
    Cache.heard (Managed.listens ["x"]) ((session (some (values.1, ["x"]))).reads request) =
      Cache.heard (Managed.listens ["x"]) ((session none).reads request) := by
  have hrequest : ∀ name ∈ request.config?, name ∈ ["x"] := by decide
  obtain ⟨hvalues, hnothing⟩ := (Session.exemption_exact ⟨values.2, []⟩ ⟨values.2, []⟩
    ⟨values.2, []⟩ values.1 (.atom .null) ["x"] search ⟨plain, .inMay 0 12 0⟩
    [.ask (.probe (.mapNoCache "x" ""))]).1 request hrequest
  exact ⟨by decide +kernel, by decide +kernel, hrequest, hvalues, hnothing⟩

end SkippedConfig
end Stratum
