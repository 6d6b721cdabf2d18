import Gekko.Delegation.Chain


/-! # `Gekko.Delegation.Logout` — what a logout ends

`/api/logout` takes the session out of the map of the frontend's server. Neither the token of the
session nor those that it has been exchanged for are revoked at Keycloak, so whatever the handlers hold
stays good until it expires. But no handler gets hold of it that did not before: from the logout on,
every request that any service lets in on behalf of the session goes back to one that had reached the
frontend when the session was still there.
-/

namespace Gekko.Delegation

open Machine
open Ancestry (Descends)

/-- The session is over, and only the first `m` requests can be its own. -/
structure Ended (session : String) (m : Nat) (w : World) : Prop where
  gone : w.sessions session = none
  opened : ∃ l ∈ w.logins, l.session = session
  before : ∀ (k : Nat) (root : Request), w.requests[k]? = some root → root.service = .frontend →
    root.session = session → k < m

/-- Every request comes from another session, from one of the first `m` requests, or from somebody who
shows a token. -/
def LeftOver (session : String) (m : Nat) (as : List Action) (w : World) : Prop :=
  ∀ (n : Nat) (r : Request), w.requests[n]? = some r → ∃ k root, Descends Request.cause w.requests n k ∧
    w.requests[k]? = some root ∧ root.token.sub = r.token.sub ∧
    ((w.Opened root ∧ (root.session = session → k < m)) ∨ .present root.service root.token ∈ as)

section Logout

variable {leeway : Service → Int} {session : String} {m : Nat} {u w w' : World}
  {as bs : List Action} {a : Action}

/-- **Step lemma.** No later login is given the same id. -/
theorem ended_step (hsound : Sound as w) (hw : Ended session m w) (h : Stepped leeway w a w') :
    Ended session m w' where
  gone := by
    rw [Option.eq_none_iff_forall_ne_some]
    intro token htoken
    obtain ⟨l, hl, hsession⟩ := hw.opened
    rcases h.sessions session token htoken with hold | ⟨-, -, hfresh, -⟩
    · rw [hw.gone] at hold
      cases hold
    · exact hfresh l hl hsession
  opened := by
    obtain ⟨l, hl, hsession⟩ := hw.opened
    exact ⟨l, h.grows.logins l hl, hsession⟩
  before := by
    intro k root hroot hservice hsession
    rcases h.requests with heq | ⟨r, heq, hadmits⟩
    · rw [heq] at hroot
      exact hw.before k root hroot hservice hsession
    · rw [heq] at hroot
      rcases Pool.getElem?_append_cases hroot with ⟨rfl, rfl⟩ | hold
      · have hcause := ((letIn_of_admits hsound hadmits).frontend hservice).1
        cases hadmits with
        | browsed session' status token htoken =>
            have hsame : session' = session := hsession
            rw [hsame, hw.gone] at htoken
            cases htoken
        -- What a handler sends does not come in at the frontend.
        | delivered i c token hc hphase hverifies => cases hcause
        | presented service token hne hverifies => exact absurd hservice hne
      · exact hw.before k root hold hservice hsession

/-- The logout itself. -/
theorem ended_logout (hopened : ∃ l ∈ u.logins, l.session = session) :
    Ended session u.requests.length { u with sessions := Function.update u.sessions session none } where
  gone := Function.update_self ..
  opened := hopened
  before := fun _ _ hroot _ _ => (List.getElem?_eq_some_iff.mp hroot).1

theorem ended_run {leeway : Service → Int} (hsound : Sound as u) (hended : Ended session m u)
    (hrun : run (step leeway) u bs = some w) : (∃ cs, Sound cs w) ∧ Ended session m w := by
  refine run_invariant (I := fun w => (∃ cs, Sound cs w) ∧ Ended session m w) ?_ ⟨⟨as, hsound⟩, hended⟩ hrun
  rintro v a v' ⟨⟨cs, hv⟩, hvended⟩ h
  have hstepped := stepped_of_step h
  exact ⟨⟨_, sound_step hv hstepped⟩, ended_step hv hvended hstepped⟩

/-- **A logout is final.** Whatever happens afterwards, the session does not come back, and nothing is
    done on its behalf that does not go back to a request from before. -/
theorem logout_final {now : Int} (hbefore : run (step leeway) (World.start now) as = some u)
    (hopened : ∃ l ∈ u.logins, l.session = session)
    (hafter : run (step leeway) u (.logout session :: bs) = some w) :
    w.sessions session = none ∧ LeftOver session u.requests.length (as ++ .logout session :: bs) w := by
  obtain ⟨v, hlogout, hrest⟩ := run_cons_eq_some.mp hafter
  have hv : v = { u with sessions := Function.update u.sessions session none } :=
    (Option.some.inj hlogout).symm
  have hended := ended_logout hopened
  rw [← hv] at hended
  have hsound := sound_step (sound_run hbefore) (stepped_of_step hlogout)
  obtain ⟨-, hw⟩ := ended_run hsound hended hrest
  have hdelegated := (sound_run (run_append_eq_some hbefore hafter)).delegated
  refine ⟨hw.gone, fun n r hr => ?_⟩
  obtain ⟨k, root, hdescends, hroot, hsub, horigin⟩ := hdelegated.origin n r hr
  refine ⟨k, root, hdescends, hroot, hsub, horigin.imp (fun hopens => ⟨hopens, ?_⟩) id⟩
  exact hw.before k root hroot hopens.1

end Logout

/-- Alice logs out while a request of hers is on its way; it goes on, and the next one does not. -/
def farewell : List Action :=
  [.advance (.look 0), .advance (.decide 0), .issue 0 "j1" 300, .advance (.stamp 0), .advance (.put 0),
   .deliver 0, .browse "s" 401]

theorem farewell_final : ∃ u w,
    run (step fun _ => 0) (World.start 0)
      [.login "s" "j0" "alice" 300, .browse "s" 401, .call 0 .orderService] = some u ∧
    run (step fun _ => 0) u (.logout "s" :: farewell) = some w ∧
    w.requests.map Request.service = [.frontend, .orderService] ∧
    w.sessions "s" = none ∧
    LeftOver "s" u.requests.length
      ([.login "s" "j0" "alice" 300, .browse "s" 401, .call 0 .orderService] ++
        .logout "s" :: farewell) w := by
  have hobs : ((run (step fun _ => 0) (World.start 0)
      [.login "s" "j0" "alice" 300, .browse "s" 401, .call 0 .orderService]).bind fun u =>
        (run (step fun _ => 0) u (.logout "s" :: farewell)).map fun w =>
          (u.logins.map Login.session, w.requests.map Request.service)) =
      some (["s"], [.frontend, .orderService]) := by
    decide +kernel
  obtain ⟨u, hu, hobs⟩ := Option.bind_eq_some_iff.mp hobs
  obtain ⟨w, hw, hpair⟩ := Option.map_eq_some_iff.mp hobs
  have hlogins : u.logins.map Login.session = ["s"] := congrArg Prod.fst hpair
  have hopened : ∃ l ∈ u.logins, l.session = "s" := by
    apply List.mem_map.mp
    rw [hlogins]
    exact List.mem_cons_self
  exact ⟨u, w, hu, hw, congrArg Prod.snd hpair, logout_final hu hopened hw⟩

end Gekko.Delegation
