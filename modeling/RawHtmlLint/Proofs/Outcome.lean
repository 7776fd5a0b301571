import RawHtmlLint.Diagnostic

/-!
# Outcomes in sequence

`Meets` says of an outcome what holds of its value and what holds of its failure. A function is
described once in this way, and what is made of it in sequence is then described step by step.

Results:
* `bind_eq_ok`: two steps in sequence succeed exactly when each of them does;
* `reject_ne_ok`: a rejection is no success;
* `exists_ok_of_any`, `exists_malformed_of_any`: an outcome is a success, or a rejection, if a test
  of it, which can be run, says so;
* `Meets.bind`: what two steps in sequence meet.
-/

namespace RawHtmlLint

theorem bind_eq_ok {α β : Type} {x : Outcome α} {f : α → Outcome β} {b : β} :
    x >>= f = .ok b ↔ ∃ a, x = .ok a ∧ f a = .ok b := by
  cases x with
  | error failure => exact ⟨fun h => (nomatch h), fun ⟨_, h, _⟩ => (nomatch h)⟩
  | ok a =>
    constructor
    · intro h
      exact ⟨a, rfl, h⟩
    · rintro ⟨a', ha, h⟩
      cases ha
      exact h

theorem pure_eq_ok {α : Type} {a b : α} : (pure a : Outcome α) = .ok b ↔ a = b :=
  ⟨fun h => by cases h; rfl, fun h => by rw [h]; rfl⟩

theorem reject_ne_ok {α : Type} {s : Source} {cause : Cause} {offset : Nat} {a : α} :
    s.reject cause offset ≠ .ok a :=
  fun h => (nomatch h)

theorem exists_ok_of_any {α : Type} {x : Outcome α} {p : α → Bool}
    (h : x.toOption.any p = true) : ∃ a, x = .ok a ∧ p a = true := by
  cases x with
  | error failure => exact (nomatch h)
  | ok a => exact ⟨a, rfl, h⟩

theorem exists_malformed_of_any {α : Type} {x : Outcome α} {p : Diagnostic → Bool}
    (h : (match x with | .error (.malformed d) => p d | _ => false) = true) :
    ∃ d, x = .error (.malformed d) ∧ p d = true := by
  split at h
  · exact ⟨_, rfl, h⟩
  · exact (nomatch h)

/-! ## What holds of values and failures -/

/-- The value has the property `P`, or the failure has the property `F`. -/
def Meets {α : Type} (F : Failure → Prop) (P : α → Prop) : Outcome α → Prop
  | .ok a => P a
  | .error failure => F failure

namespace Meets

variable {α β : Type} {F : Failure → Prop} {P P' : α → Prop} {Q : β → Prop}

theorem of_ok {x : Outcome α} {a : α} (h : Meets F P x) (hx : x = .ok a) : P a := by
  rw [hx] at h
  exact h

theorem of_error {x : Outcome α} {failure : Failure} (h : Meets F P x)
    (hx : x = .error failure) : F failure := by
  rw [hx] at h
  exact h

/-- **Two steps in sequence**: the second one may rely on what the first one meets. -/
theorem bind {x : Outcome α} {f : α → Outcome β} (hx : Meets F P x)
    (hf : ∀ a, P a → Meets F Q (f a)) : Meets F Q (x >>= f) := by
  cases x with
  | error failure => exact hx
  | ok a => exact hf a hx

/-- The second step may also rely on what the value of the first one is. -/
theorem bind_ok {x : Outcome α} {f : α → Outcome β} (hx : Meets F P x)
    (hf : ∀ a, x = .ok a → P a → Meets F Q (f a)) : Meets F Q (x >>= f) := by
  cases x with
  | error failure => exact hx
  | ok a => exact hf a rfl hx

theorem imp {x : Outcome α} (h : Meets F P x) (himp : ∀ a, P a → P' a) : Meets F P' x := by
  cases x with
  | error failure => exact h
  | ok a => exact himp a h

theorem and_ok {x : Outcome α} (h : Meets F P x) : Meets F (fun a => P a ∧ x = .ok a) x := by
  cases x with
  | error failure => exact h
  | ok a => exact ⟨h, rfl⟩

theorem mapM {f : α → Outcome β} : ∀ {xs : List α}, (∀ x ∈ xs, Meets F Q (f x)) →
    Meets F (fun ys => ∀ y ∈ ys, Q y) (xs.mapM f)
  | [], _ => fun y hy => absurd hy List.not_mem_nil
  | x :: xs, h => by
    rw [List.mapM_cons]
    refine (h x List.mem_cons_self).bind fun y hy => ?_
    refine (mapM fun z hz => h z (List.mem_cons_of_mem _ hz)).bind fun ys hys => ?_
    intro z hz
    rcases List.mem_cons.mp hz with rfl | hz
    · exact hy
    · exact hys z hz

/-- Steps of a fold keep what the first one starts with. -/
theorem foldlM {f : β → α → Outcome β} : ∀ {xs : List α} {b : β}, Q b →
    (∀ b, ∀ a ∈ xs, Q b → Meets F Q (f b a)) → Meets F Q (xs.foldlM f b)
  | [], _, hb, _ => hb
  | a :: xs, b, hb, hstep => by
    rw [List.foldlM_cons]
    exact (hstep b a List.mem_cons_self hb).bind fun c hc =>
      foldlM hc fun d x hx => hstep d x (List.mem_cons_of_mem _ hx)

end Meets

end RawHtmlLint
