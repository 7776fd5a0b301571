import Mathlib.Data.List.Forall2
import Mathlib.Data.List.Nodup
import RawHtmlLint.Proofs.Lookup
import RawHtmlLint.Template.Node.FromJson

/-!
# JSON values up to the order of members

The members of an object are kept in the order in which they were written, but that order says
nothing: objects are the same if each name has the same value in both, or in neither. The order of
the items of an array does say something.

Results:
* `Same.refl`, `Same.of_perm`: a value is the same as itself, and an object as the one with its
  members in another order;
* `Same.bind_member`, `Same.memberOr_eq`, `Same.optionalMember_eq`, `Same.mapM_eq`: reading members
  and items does not see the order of members if reading their values does not.
-/

namespace RawHtmlLint.Json

/-- The values are the same but for the order in which objects list their members. -/
inductive Same : Json → Json → Prop
  | null : Same .null .null
  | bool (value : Bool) : Same (.bool value) (.bool value)
  | int (value : Int) : Same (.int value) (.int value)
  | real (spelling : String) : Same (.real spelling) (.real spelling)
  | str (value : String) : Same (.str value) (.str value)
  | arr {xs ys : List Json} (h : List.Forall₂ Same xs ys) : Same (.arr xs) (.arr ys)
  | obj {ms ns : List (String × Json)}
      (h : ∀ name, Option.Rel Same ((Json.obj ms).member? name) ((Json.obj ns).member? name)) :
      Same (.obj ms) (.obj ns)

namespace Same

theorem refl : ∀ j : Json, j.Same j
  | .null => .null
  | .bool value => .bool value
  | .int value => .int value
  | .real spelling => .real spelling
  | .str value => .str value
  | .arr items => .arr (List.forall₂_same.mpr fun item _ => refl item)
  | .obj members => .obj fun name =>
    match _h : (Json.obj members).member? name with
    | none => .none
    | some value => .some (refl value)
termination_by j => sizeOf j
decreasing_by
  · have := List.sizeOf_lt_of_mem ‹item ∈ items›
    simp only [Json.arr.sizeOf_spec]
    omega
  · exact sizeOf_lt_of_member? _h

/-- **The order of members does not matter.** -/
theorem of_perm {ms ns : List (String × Json)} (hnames : (ms.map (·.1)).Nodup) (h : ms.Perm ns) :
    (Json.obj ms).Same (.obj ns) := by
  have hnames' : (ns.map (·.1)).Nodup := (h.map _).nodup_iff.mp hnames
  refine .obj fun name => ?_
  have hsame : (Json.obj ms).member? name = (Json.obj ns).member? name := by
    refine Option.ext fun value => ?_
    unfold member?
    rw [lookup_eq_some_iff_mem, lookup_eq_some_iff_mem, List.mem_reverse, List.mem_reverse,
      h.mem_iff]
    · rwa [List.map_reverse, List.nodup_reverse]
    · rwa [List.map_reverse, List.nodup_reverse]
  rw [hsame]
  cases (Json.obj ns).member? name with
  | none => exact .none
  | some value => exact .some (refl value)

variable {j k : Json}

/-- A name has the same value in both, or in neither. -/
theorem member?_cases (h : j.Same k) (name : String) :
    (j.member? name = none ∧ k.member? name = none) ∨
      ∃ v w, j.member? name = some v ∧ k.member? name = some w ∧ v.Same w := by
  have hrel : Option.Rel Same (j.member? name) (k.member? name) := by
    cases h with
    | obj h => exact h name
    | _ => exact .none
  generalize j.member? name = v at hrel
  generalize k.member? name = w at hrel
  cases hrel with
  | none => exact .inl ⟨rfl, rfl⟩
  | some h => exact .inr ⟨_, _, rfl, rfl, h⟩

/-! ## Reading values -/

theorem str?_eq (h : j.Same k) : j.str? = k.str? := by cases h <;> rfl

theorem int?_eq (h : j.Same k) : j.int? = k.int? := by cases h <;> rfl

theorem bool?_eq (h : j.Same k) : j.bool? = k.bool? := by cases h <;> rfl

theorem nat?_eq (h : j.Same k) : j.nat? = k.nat? := by
  unfold nat?
  rw [h.int?_eq]

section

variable {α : Type} {name : String}

/-- Items are read one by one. -/
theorem mapM_eq {f : Json → Option α} : ∀ {xs ys : List Json}, List.Forall₂ Same xs ys →
    (∀ x ∈ xs, ∀ y, x.Same y → f x = f y) → xs.mapM f = ys.mapM f
  | _, _, .nil, _ => rfl
  | x :: xs, y :: ys, .cons h hs, hf => by
    rw [List.mapM_cons, List.mapM_cons, hf x List.mem_cons_self y h,
      mapM_eq hs fun z hz => hf z (List.mem_cons_of_mem _ hz)]

theorem items?_bind_eq {f : List Json → Option α} (h : j.Same k)
    (hf : ∀ xs ys, j.items? = some xs → List.Forall₂ Same xs ys → f xs = f ys) :
    j.items?.bind f = k.items?.bind f := by
  cases h with
  | arr h => exact hf _ _ rfl h
  | _ => rfl

theorem strings?_eq (h : j.Same k) : j.strings? = k.strings? :=
  h.items?_bind_eq fun _ _ _ hitems => mapM_eq hitems fun _ _ _ hitem => hitem.str?_eq

/-- Two readings go on alike with a member that has to be there. -/
theorem bind_member {f g : Json → Option α} (h : j.Same k)
    (hfg : ∀ v w, j.member? name = some v → v.Same w → f v = g w) :
    (j.member? name >>= f) = (k.member? name >>= g) := by
  rcases h.member?_cases name with ⟨hv, hw⟩ | ⟨v, w, hv, hw, hvw⟩
  · rw [hv, hw]
    rfl
  · rw [hv, hw]
    exact hfg v w hv hvw

theorem memberOr_eq {default : α} {f : Json → Option α} (h : j.Same k)
    (hf : ∀ v w, j.member? name = some v → v.Same w → f v = f w) :
    j.memberOr name default f = k.memberOr name default f := by
  unfold memberOr
  rcases h.member?_cases name with ⟨hv, hw⟩ | ⟨v, w, hv, hw, hvw⟩
  · rw [hv, hw]
  · rw [hv, hw]
    exact hf v w hv hvw

theorem optionalMember_eq {f : Json → Option α} (h : j.Same k)
    (hf : ∀ v w, j.member? name = some v → v.Same w → f v = f w) :
    j.optionalMember name f = k.optionalMember name f := by
  unfold optionalMember
  rcases h.member?_cases name with ⟨hv, hw⟩ | ⟨v, w, hv, hw, hvw⟩
  · rw [hv, hw]
  · rw [hv, hw]
    have hvalue := hf v w hv hvw
    cases hvw with
    | null => rfl
    | _ => exact congrArg (Option.map some) hvalue

end

end Same

end RawHtmlLint.Json
