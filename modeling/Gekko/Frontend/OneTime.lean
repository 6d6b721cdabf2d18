import Gekko.Frontend.Login


/-! # `Gekko.Frontend.OneTime` — what can be had with a `state`

`consumePendingLogin` looks the entry up, deletes it, and only then asks how old it is. So one attempt
is all that a `state` is good for, in time or not: `attempt_used` says that it finds nothing afterwards,
in whatever run follows, as `randomUUID()` does not give the same `state` to a second login. The first
attempt in time gets the verifier that was stored with the `state`, and no attempt touches an entry of
another `state`.

An attempt is a callback that gets as far as `consumePendingLogin`. One without a `code` does not, and
leaves the login of its `state` pending. Nothing here asks anything of the clock.
-/

namespace Gekko.Frontend

open Machine

variable {β : Type}

/-- The `state` that a callback tries, and when. -/
def LoginAction.attempt : LoginAction β → Option (String × Int)
  | .callback _ code state now =>
      match code.filter (fun c => c ≠ ""), state.filter (fun st => st ≠ "") with
      | some _, some state => some (state, now)
      | _, _ => none
  | _ => none

/-- A login request got this `state`. -/
def Issued (s : LoginState β) (state : String) : Prop := ∃ l ∈ s.logins, l.state = state

/-- The `state` was given out and leads to no pending login any more. -/
structure Used (s : LoginState β) (state : String) : Prop where
  issued : Issued s state
  gone : s.bff.pendingLogins state = none

/-- No two login requests got the same `state`. -/
def Distinct (s : LoginState β) : Prop := ∀ l ∈ s.logins, ∀ l' ∈ s.logins, l.state = l'.state → l = l'

/-! ## One attempt -/

/-- `consumePendingLogin` hands out what is pending, unless it is too old. -/
theorem consumePendingLogin_eq_some {bff : Bff} {state : String} {now : Int} {pending : PendingLogin}
    (h : (bff.consumePendingLogin state now).1 = some pending) :
    bff.pendingLogins state = some pending ∧ now - pending.createdAt ≤ pendingLoginTtl := by
  by_cases hne : state = ""
  · rw [Bff.consumePendingLogin, if_pos hne] at h
    cases h
  · rw [consumePendingLogin_eq hne] at h
    obtain ⟨hpending, htime⟩ := Option.filter_eq_some_iff.mp h
    exact ⟨hpending, not_lt.mp (of_decide_eq_true htime)⟩

theorem consumePendingLogin_of_none {bff : Bff} {state : String}
    (h : bff.pendingLogins state = none) (now : Int) :
    (bff.consumePendingLogin state now).1 = none := by
  rw [Option.eq_none_iff_forall_ne_some]
  intro pending hpending
  obtain ⟨hsome, -⟩ := consumePendingLogin_eq_some hpending
  rw [h] at hsome
  cases hsome

section Steps

variable [DecidableEq β] {redeems : String → String → Bool} {s s' t : LoginState β}

/-- Accepted or not, an attempt leaves the map without its `state`. -/
theorem without_of_attempt {a : LoginAction β} {state : String} {now : Int}
    (ha : a.attempt = some (state, now))
    (h : loginStep redeems s a = some s') : s'.bff = s.bff.without state ∧ s'.logins = s.logins := by
  cases a with
  | login browser codeVerifier state now => cases ha
  | fail i status => cases ha
  | grant i tokens payload sessionId now => cases ha
  | callback browser code state' now' =>
      simp only [LoginAction.attempt] at ha
      split at ha
      · rename_i hcode hstate
        cases ha
        have hne : state ≠ "" := by
          have hkept := (Option.filter_eq_some_iff.mp hstate).2
          simpa using hkept
        simp only [loginStep, hcode, hstate, consumePendingLogin_eq hne] at h
        cases hentry : (s.bff.pendingLogins state).filter
            fun entry => ¬ pendingLoginTtl < now - entry.createdAt with
        | none =>
            simp only [hentry] at h
            cases h
            exact ⟨rfl, rfl⟩
        | some pending =>
            simp only [hentry] at h
            cases h
            exact ⟨rfl, rfl⟩
      · cases ha

/-! ## The steps after it -/

/-- A used `state` stays so: a callback enters nothing, and a login request gets another `state`. -/
theorem used_stepped {state : String} (hs : Used s state) (h : LoginStepped redeems s s') :
    Used s' state := by
  cases h with
  | ignored => exact hs
  | started browser codeVerifier st now hfresh =>
      obtain ⟨l, hl, hstate⟩ := hs.issued
      have hne : state ≠ st := fun heq => hfresh l hl (hstate.trans heq)
      refine ⟨⟨l, List.mem_append_left _ hl, hstate⟩, ?_⟩
      simp only [Bff.startPendingLogin, Function.update_of_ne hne]
      exact hs.gone
  | dropped st => exact ⟨hs.issued, Bff.pendingLogins_without_of_none hs.gone⟩
  | consumed c hpending htime hphase => exact ⟨hs.issued, Bff.pendingLogins_without_of_none hs.gone⟩
  | failed i c status hc => exact ⟨hs.issued, hs.gone⟩
  | granted i c tokens payload sessionId now hc hredeems => exact ⟨hs.issued, hs.gone⟩

theorem distinct_stepped (hs : Distinct s) (h : LoginStepped redeems s s') : Distinct s' := by
  cases h with
  | ignored => exact hs
  | started browser codeVerifier st now hfresh =>
      intro l hl l' hl' heq
      rcases List.mem_append.mp hl with hl | hl
      · rcases List.mem_append.mp hl' with hl' | hl'
        · exact hs l hl l' hl' heq
        · rw [List.mem_singleton.mp hl'] at heq
          exact absurd heq (hfresh l hl)
      · rcases List.mem_append.mp hl' with hl' | hl'
        · rw [List.mem_singleton.mp hl] at heq
          exact absurd heq.symm (hfresh l' hl')
        · rw [List.mem_singleton.mp hl, List.mem_singleton.mp hl']
  | dropped st => exact hs
  | consumed c hpending htime hphase => exact hs
  | failed i c status hc => exact hs
  | granted i c tokens payload sessionId now hc hredeems => exact hs

theorem used_run {as : List (LoginAction β)} {state : String} (hs : Used s state)
    (hrun : run (loginStep redeems) s as = some t) : Used t state :=
  run_invariant (I := (Used · state)) (fun _ _ _ hs h => used_stepped hs (stepped_of_loginStep h)) hs hrun

theorem distinct_run {as : List (LoginAction β)}
    (hrun : run (loginStep redeems) LoginState.start as = some s) :
    Distinct s := by
  have hstart : Distinct (LoginState.start : LoginState β) := by
    intro l hl
    cases hl
  exact run_invariant (I := Distinct) (fun _ _ _ hs h =>
    distinct_stepped hs (stepped_of_loginStep h)) hstart hrun

/-- What is handed out for a `state` was stored with it. -/
theorem issued_of_consumed {as : List (LoginAction β)}
    (hrun : run (loginStep redeems) LoginState.start as = some s)
    {state : String} {now : Int} {pending : PendingLogin}
    (h : (s.bff.consumePendingLogin state now).1 = some pending) :
    Issued s state ∧ ∀ l ∈ s.logins, l.state = state →
      pending.codeVerifier = l.codeVerifier ∧ now - l.startedAt ≤ pendingLoginTtl := by
  have htraced : Traced redeems s :=
    run_invariant (fun _ _ _ h hstep => traced_stepped h (stepped_of_loginStep hstep)) traced_start hrun
  obtain ⟨hpending, htime⟩ := consumePendingLogin_eq_some h
  obtain ⟨l, hl, hstate, hverifier, hstarted⟩ := htraced.pending state pending hpending
  refine ⟨⟨l, hl, hstate⟩, fun l' hl' hstate' => ?_⟩
  -- The login with this `state` is the only one.
  have heq : l' = l := distinct_run hrun l' hl' l hl (hstate'.trans hstate.symm)
  rw [heq]
  refine ⟨hverifier.symm, ?_⟩
  rw [hstarted]
  exact htime

/-- **One attempt.** In every run of login requests and callbacks, with whatever `state`s, an attempt
    that succeeds is for a `state` that was given out at most five minutes before, and gets the verifier
    stored with it. When the `state` was given out, no later attempt finds anything under it, whether
    this one succeeded or not. The pending logins of other `state`s are as they were. -/
theorem attempt_used {as : List (LoginAction β)} {a : LoginAction β} {state : String} {now : Int}
    (hrun : run (loginStep redeems) LoginState.start as = some s) (ha : a.attempt = some (state, now))
    (hstep : loginStep redeems s a = some s') :
    (∀ pending, (s.bff.consumePendingLogin state now).1 = some pending → Issued s state ∧
      ∀ l ∈ s.logins, l.state = state →
        pending.codeVerifier = l.codeVerifier ∧ now - l.startedAt ≤ pendingLoginTtl) ∧
    (Issued s state → ∀ bs t, run (loginStep redeems) s' bs = some t →
      ∀ later, (t.bff.consumePendingLogin state later).1 = none) ∧
    ∀ other, other ≠ state → s'.bff.pendingLogins other = s.bff.pendingLogins other := by
  obtain ⟨hbff, hlogins⟩ := without_of_attempt ha hstep
  refine ⟨fun pending h => issued_of_consumed hrun h, ?_, ?_⟩
  · rintro ⟨l, hl, hstate⟩ bs t hrest later
    have hused : Used s' state := by
      constructor
      · exact ⟨l, by rwa [hlogins], hstate⟩
      · rw [hbff]
        exact Bff.pendingLogins_without_self s.bff state
    exact consumePendingLogin_of_none (used_run hused hrest).gone later
  · intro other hne
    rw [hbff]
    exact Function.update_of_ne hne none s.bff.pendingLogins

end Steps

/-- `mallory` has started a login. -/
def malloryPending : LoginState String :=
  { (LoginState.start : LoginState String) with
    bff := Bff.empty.startPendingLogin "verifier" "state" 0
    logins := [⟨"mallory's", "state", "verifier", 0⟩] }

/-- The callback of a login under way gets its verifier, and after it nobody does. -/
theorem malloryPending_used : ∃ s, run (loginStep mallorysCode) LoginState.start
      [.login "mallory's" "verifier" "state" 0] = some malloryPending ∧
    loginStep mallorysCode malloryPending (.callback "mallory's"
      (some "code") (some "state") 60000) = some s ∧
    (malloryPending.bff.consumePendingLogin "state" 60000).1 = some ⟨"verifier", 0⟩ ∧
    ∀ bs t, run (loginStep mallorysCode) s bs = some t →
      ∀ later, (t.bff.consumePendingLogin "state" later).1 = none := by
  have hrun : run (loginStep mallorysCode) LoginState.start [.login "mallory's" "verifier" "state" 0]
      = some malloryPending := rfl
  have hstep : loginStep mallorysCode malloryPending
      (.callback "mallory's" (some "code") (some "state") 60000) = some _ := rfl
  obtain ⟨-, hgone, -⟩ := attempt_used hrun rfl hstep
  exact ⟨_, hrun, hstep, rfl, hgone ⟨_, List.mem_cons_self, rfl⟩⟩

end Gekko.Frontend
