import Mathlib.Data.List.Basic


/-! # `Gekko.Lib.Serving` — a store that serves one request after another

`serveAll serve s requests` is what a server answers to a list of requests, one after the other, and the
store that it ends with. The three rules take a fact about one request to a list of them:

* `serveAll_frame` — what no request changes is unchanged at the end;
* `forall_serveAll` — what every answer satisfies, all the answers satisfy;
* `serveAll_unwinding` — two stores that every request answers alike, and takes to stores of the same
  kind, are not told apart by any list of requests.
-/

namespace Serving

variable {σ α ω β : Type*} {serve : σ → α → ω × σ} {requests : List α}

/-- The answers to the requests, and the store afterwards. -/
def serveAll (serve : σ → α → ω × σ) : σ → List α → List ω × σ
  | s, [] => ([], s)
  | s, request :: requests =>
      let (answer, s') := serve s request
      let (answers, t) := serveAll serve s' requests
      (answer :: answers, t)

theorem serveAll_cons (s : σ) (request : α) (requests : List α) :
    serveAll serve s (request :: requests) =
      ((serve s request).1 :: (serveAll serve (serve s request).2 requests).1,
        (serveAll serve (serve s request).2 requests).2) := rfl

/-- **The frame rule.** -/
theorem serveAll_frame {f : σ → β} (h : ∀ request ∈ requests, ∀ s, f (serve s request).2 = f s) (s : σ) :
    f (serveAll serve s requests).2 = f s := by
  induction requests generalizing s with
  | nil => rfl
  | cons request requests ih =>
      rw [serveAll_cons]
      have hrest := ih (fun r hr => h r (List.mem_cons_of_mem _ hr)) (serve s request).2
      exact hrest.trans (h request List.mem_cons_self s)

/-- **The rule for all answers.** -/
theorem forall_serveAll {P : ω → Prop} (h : ∀ request ∈ requests, ∀ s, P (serve s request).1) (s : σ) :
    ∀ answer ∈ (serveAll serve s requests).1, P answer := by
  induction requests generalizing s with
  | nil => exact nofun
  | cons request requests ih =>
      rw [serveAll_cons]
      intro answer hanswer
      rcases List.mem_cons.mp hanswer with rfl | hanswer
      · exact h request List.mem_cons_self s
      · exact ih (fun r hr => h r (List.mem_cons_of_mem _ hr)) _ answer hanswer

/-- **The unwinding rule.** -/
theorem serveAll_unwinding {R : σ → σ → Prop}
    (h : ∀ request ∈ requests, ∀ s t, R s t →
      (serve s request).1 = (serve t request).1 ∧ R (serve s request).2 (serve t request).2)
    {s t : σ} (hR : R s t) :
    (serveAll serve s requests).1 = (serveAll serve t requests).1 ∧
      R (serveAll serve s requests).2 (serveAll serve t requests).2 := by
  induction requests generalizing s t with
  | nil => exact ⟨rfl, hR⟩
  | cons request requests ih =>
      obtain ⟨hanswer, hnext⟩ := h request List.mem_cons_self s t hR
      obtain ⟨hanswers, hfinal⟩ := ih (fun r hr => h r (List.mem_cons_of_mem _ hr)) hnext
      rw [serveAll_cons, serveAll_cons]
      exact ⟨by rw [hanswer, hanswers], hfinal⟩

end Serving
