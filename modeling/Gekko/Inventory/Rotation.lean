import Gekko.Inventory.Jwks
import Gekko.Lib.Versions


/-! # `Gekko.Inventory.Rotation` — which key set Inventory Service is left with

The machine of `Gekko.Inventory.Jwks` together with Keycloak, which serves one key set after another: a
fetch reads the one that is served at some moment, and the keys it stores are those. Nothing keeps two
fetches from being under way at once, and the one that ends last is the one that counts, whichever key
set it has read.

`installed_le_run` says when the cache is not taken back: whenever a call stores its keys, no other call
has done so since the document was read, or the document is the one that is still served.
-/

namespace Gekko.Inventory.Jwks

open Machine Versions

variable {κ : Type}

/-- The cache, and Keycloak. -/
structure World (κ : Type) where
  cache : State κ
  versions : Store
  /-- What the fetch of a call has been answered with. -/
  tickets : Nat → Option Ticket

inductive Event where
  /-- Keycloak serves the next document from now on. -/
  | publish
  /-- Keycloak answers the fetch of call `i` with the document that it serves. -/
  | serve (i : Nat)
  | cache (a : Action)
  deriving DecidableEq, Repr

/-- The fetch of call `i` is under way, and has not been answered. -/
def World.waits (w : World κ) (i : Nat) : Bool :=
  match w.cache.calls[i]?, w.tickets i with
  | some ⟨_, .fetching, _⟩, none => true
  | _, _ => false

def next (decodeKey : String → String → Option κ) (docs : Nat → List Jwk) (w : World κ) :
    Event → Option (World κ)
  | .publish => some { w with versions := w.versions.publish }
  | .serve i =>
      if w.waits i then some { w with tickets := Function.update w.tickets i (some w.versions.read) }
        else none
  | .cache a =>
      match a.act with
      -- What is stored is the document that the fetch has been answered with.
      | .install i set =>
          (w.tickets i).bind fun ticket =>
            if set = docs ticket.version then
              (step decodeKey w.cache a).map fun cache =>
                { w with cache := cache, versions := w.versions.install ticket }
            else none
      | _ => (step decodeKey w.cache a).map fun cache => { w with cache := cache }

/-- Both after the fetch at startup, which has read document 0. -/
def World.start (decodeKey : String → String → Option κ) (docs : Nat → List Jwk)
    (startedAt : Int) : World κ :=
  ⟨Jwks.start (keysOf decodeKey (docs 0)) startedAt, ⟨0, 0, 0⟩, fun _ => none⟩

/-! ## What an event can do -/

variable {decodeKey : String → String → Option κ} {docs : Nat → List Jwk} {w w' : World κ} {e : Event}

theorem keys_of_perform {s s' : State κ} {act : Act} (h : s.perform decodeKey act = some s')
    (hnone : ∀ i set, act ≠ .install i set) : s'.keys = s.keys := by
  cases performed_of_perform h with
  | installed i c set keys hc => exact absurd rfl (hnone i set)
  | _ => rfl

theorem keys_of_install {s s' : State κ} {i : Nat} {set : List Jwk}
    (h : s.perform decodeKey (.install i set) = some s') :
    s'.keys = keysOf decodeKey set := by
  simp only [State.perform] at h
  split at h
  · split at h
    · cases h
      rfl
    · cases h
  · cases h

/-- The ways an event can change the documents and the keys. -/
inductive Happened (decodeKey : String → String → Option κ) (docs : Nat → List Jwk) (w : World κ) :
    Event → World κ → Prop where
  | published : Happened decodeKey docs w .publish { w with versions := w.versions.publish }
  | served (i : Nat) :
      Happened decodeKey docs w (.serve i)
        { w with tickets := Function.update w.tickets i (some w.versions.read) }
  | stored (time : Int) (i : Nat) (ticket : Ticket) (cache : State κ) (hticket : w.tickets i = some ticket)
      (hkeys : cache.keys = keysOf decodeKey (docs ticket.version)) :
      Happened decodeKey docs w (.cache ⟨time, .install i (docs ticket.version)⟩)
        { w with cache := cache, versions := w.versions.install ticket }
  | other (a : Action) (cache : State κ) (hkeys : cache.keys = w.cache.keys) :
      Happened decodeKey docs w (.cache a) { w with cache := cache }

theorem happened_of_next (h : next decodeKey docs w e = some w') : Happened decodeKey docs w e w' := by
  cases e with
  | publish =>
      cases h
      exact .published
  | serve i =>
      simp only [next] at h
      split at h
      · cases h
        exact .served i
      · cases h
  | cache a =>
      obtain ⟨time, act⟩ := a
      have hother : (∀ i set, act ≠ .install i set) →
          (step decodeKey w.cache ⟨time, act⟩).map (fun cache => { w with cache := cache }) = some w' →
          Happened decodeKey docs w (.cache ⟨time, act⟩) w' := by
        intro hnone hmap
        obtain ⟨cache, hcache, rfl⟩ := Option.map_eq_some_iff.mp hmap
        refine .other _ cache ?_
        unfold step at hcache
        split at hcache
        · cases hcache
        · exact keys_of_perform (s := w.cache.at time) hcache hnone
      cases act with
      | install i set =>
          obtain ⟨ticket, hticket, h⟩ := Option.bind_eq_some_iff.mp h
          split at h
          · rename_i hset
            subst hset
            obtain ⟨cache, hcache, rfl⟩ := Option.map_eq_some_iff.mp h
            refine .stored time i ticket cache hticket ?_
            unfold step at hcache
            split at hcache
            · cases hcache
            · exact keys_of_install hcache
          · cases h
      | arrive kid => exact hother (by simp) h
      | test i => exact hother (by simp) h
      | start i => exact hother (by simp) h
      | fail i => exact hother (by simp) h
      | reread i => exact hother (by simp) h

/-! ## No way back -/

structure Tracked (decodeKey : String → String → Option κ) (docs : Nat → List Jwk) (w : World κ) : Prop where
  sound : w.versions.Sound
  ticket : ∀ i k, w.tickets i = some k → w.versions.Valid k
  /-- The keys are those of the document that was stored last. -/
  keys : w.cache.keys = keysOf decodeKey (docs w.versions.installed)

theorem tracked_start (startedAt : Int) : Tracked decodeKey docs (World.start decodeKey docs startedAt) := by
  refine ⟨Nat.le_refl _, ?_, rfl⟩
  intro i k hk
  cases hk

theorem tracked_next (hw : Tracked decodeKey docs w) (h : next decodeKey docs w e = some w') :
    Tracked decodeKey docs w' := by
  cases happened_of_next h with
  | published => exact ⟨hw.sound.publish, fun i k hk => (hw.ticket i k hk).publish, hw.keys⟩
  | served i =>
      refine ⟨hw.sound, ?_, hw.keys⟩
      intro j k hk
      simp only [Function.update_apply] at hk
      split at hk
      · cases hk
        exact hw.sound.read
      · exact hw.ticket j k hk
  | stored time i ticket cache hticket hkeys =>
      have hvalid := hw.ticket i ticket hticket
      exact ⟨Store.Sound.install hvalid, fun j k hk => (hw.ticket j k hk).install, hkeys⟩
  | other a cache hkeys => exact ⟨hw.sound, hw.ticket, hkeys.trans hw.keys⟩

/-- When a call stores its keys, no other call has done so since the document was read, or the document
is still served. -/
def Timely (w : World κ) : Event → Prop
  | .cache ⟨_, .install i _⟩ => ∀ ticket ∈ w.tickets i, w.versions.Fresh ticket ∨
      ticket.version = w.versions.current
  | _ => True

theorem installed_le_next (hw : Tracked decodeKey docs w) (he : Timely w e)
    (h : next decodeKey docs w e = some w') :
    w.versions.installed ≤ w'.versions.installed := by
  cases happened_of_next h with
  | published => exact Nat.le_refl _
  | served i => exact Nat.le_refl _
  | stored time i ticket cache hticket hkeys =>
      rcases he ticket hticket with hfresh | hcurrent
      · exact Store.installed_le_install (hw.ticket i ticket hticket) hfresh
      · -- No document is newer than the one that is served.
        exact Nat.le_trans hw.sound (Nat.le_of_eq hcurrent.symm)
  | other a cache hkeys => exact Nat.le_refl _

theorem tracked_run {startedAt : Int} {es : List Event}
    (hw : run (next decodeKey docs) (World.start decodeKey docs startedAt) es = some w) :
    Tracked decodeKey docs w :=
  run_invariant (I := fun u : World κ => Tracked decodeKey docs u) (fun _ _ _ hu h => tracked_next hu h)
    (tracked_start startedAt) hw

/-- **The cache is not taken back**: from a state `w` that any run has reached to a later one, the
    number of the stored document does not fall where the stores in between are timely, and the keys are
    those of that document. -/
theorem installed_le_run {startedAt : Int} {es fs : List Event} {v : World κ}
    (hw : run (next decodeKey docs) (World.start decodeKey docs startedAt) es = some w)
    (hfs : Along (next decodeKey docs) Timely w fs) (hv : run (next decodeKey docs) w fs = some v) :
    w.versions.installed ≤ v.versions.installed ∧
      w.cache.keys = keysOf decodeKey (docs w.versions.installed) ∧
      v.cache.keys = keysOf decodeKey (docs v.versions.installed) := by
  have htracked := tracked_run hw
  have hinv : Tracked decodeKey docs v ∧ w.versions.installed ≤ v.versions.installed := by
    refine run_invariant_along
      (I := fun u => Tracked decodeKey docs u ∧ w.versions.installed ≤ u.versions.installed) ?_
      ⟨htracked, Nat.le_refl _⟩ hfs hv
    rintro u e u' ⟨hu, hle⟩ he h
    exact ⟨tracked_next hu h, Nat.le_trans hle (installed_le_next hu he h)⟩
  exact ⟨hinv.2, htracked.keys, hinv.1.keys⟩

instance (w : World κ) : ∀ e : Event, Decidable (Timely w e)
  | .cache ⟨_, .install i _⟩ => inferInstanceAs (Decidable (∀ ticket ∈ w.tickets i, _ ∨ _))
  | .publish => isTrue trivial
  | .serve _ => isTrue trivial
  | .cache ⟨_, .arrive _⟩ => isTrue trivial
  | .cache ⟨_, .test _⟩ => isTrue trivial
  | .cache ⟨_, .start _⟩ => isTrue trivial
  | .cache ⟨_, .fail _⟩ => isTrue trivial
  | .cache ⟨_, .reread _⟩ => isTrue trivial

/-- The second document is for the key that comes after the rotation. -/
def rotation (version : Nat) : List Jwk := [⟨if version = 0 then "old" else "new", "RSA", "AQAB", "AQAB"⟩]

/-- Two calls fetch at one time, and Keycloak rotates its key after it has answered the first one. -/
def twoFetches : List Event :=
  [.cache ⟨1, .arrive "new"⟩, .cache ⟨1, .arrive "new"⟩, .cache ⟨minInterval, .test 0⟩,
   .cache ⟨minInterval, .test 1⟩, .cache ⟨minInterval, .start 0⟩, .cache ⟨minInterval, .start 1⟩,
   .serve 0, .publish, .serve 1]

/-- The answers are stored in the order in which they were given. -/
def inOrder : List Event :=
  [.cache ⟨minInterval + 1, .install 0 (rotation 0)⟩, .cache ⟨minInterval + 2, .install 1 (rotation 1)⟩]

/-- The second answer is stored. -/
def overtaking : List Event := [.cache ⟨minInterval + 1, .install 1 (rotation 1)⟩]

/-- The first answer is stored when the second one has been. -/
def overtaken : List Event := [.cache ⟨minInterval + 2, .install 0 (rotation 0)⟩]

theorem inOrder_installed :
    ∃ w v, run (next (fun _ _ => some ()) rotation) (World.start (fun _ _ => some ()) rotation 0)
        twoFetches = some w ∧
      run (next (fun _ _ => some ()) rotation) w inOrder = some v ∧
      w.versions.installed ≤ v.versions.installed ∧ v.versions.installed = 1 ∧
      v.cache.keys = keysOf (fun _ _ => some ()) (rotation v.versions.installed) := by
  have hobs : (run (next (fun _ _ => some ()) rotation) (World.start (fun _ _ => some ()) rotation 0)
      twoFetches).map
      (fun w => decide (Along (next (fun _ _ => some ()) rotation) Timely w inOrder)) = some true := by
    decide +kernel
  have hobs' : (run (next (fun _ _ => some ()) rotation) (World.start (fun _ _ => some ()) rotation 0)
      (twoFetches ++ inOrder)).map (fun v => v.versions.installed) = some 1 := by decide +kernel
  obtain ⟨w, hw, htimely⟩ := Option.map_eq_some_iff.mp hobs
  obtain ⟨v, hv, hinstalled⟩ := Option.map_eq_some_iff.mp hobs'
  rw [run_append, hw] at hv
  obtain ⟨hle, -, hkeys⟩ := installed_le_run hw (of_decide_eq_true htimely) hv
  exact ⟨w, v, hw, hv, hle, hinstalled, hkeys⟩

/-- **The old keys come back** when the answers are stored in the other order. -/
theorem overtaken_takes_back :
    ∃ w v, run (next (fun _ _ => some ()) rotation) (World.start (fun _ _ => some ()) rotation 0)
        (twoFetches ++ overtaking) = some w ∧
      run (next (fun _ _ => some ()) rotation) w overtaken = some v ∧
      w.versions.installed = 1 ∧ w.cache.keys "new" = some () ∧ v.versions.installed = 0 ∧
      v.cache.keys "new" = none := by
  have hobs : (run (next (fun _ _ => some ()) rotation) (World.start (fun _ _ => some ()) rotation 0)
      (twoFetches ++ overtaking)).map (fun w => (w.versions.installed, w.cache.keys "new")) =
        some (1, some ()) := by
    decide +kernel
  have hobs' : (run (next (fun _ _ => some ()) rotation) (World.start (fun _ _ => some ()) rotation 0)
      (twoFetches ++ overtaking ++ overtaken)).map (fun v => (v.versions.installed, v.cache.keys "new"))
        = some (0, none) := by
    decide +kernel
  obtain ⟨w, hw, hbefore⟩ := Option.map_eq_some_iff.mp hobs
  obtain ⟨v, hv, hafter⟩ := Option.map_eq_some_iff.mp hobs'
  rw [run_append, hw] at hv
  obtain ⟨hw₁, hw₂⟩ := Prod.mk.inj hbefore
  obtain ⟨hv₁, hv₂⟩ := Prod.mk.inj hafter
  exact ⟨w, v, hw, hv, hw₁, hw₂, hv₁, hv₂⟩

end Gekko.Inventory.Jwks
