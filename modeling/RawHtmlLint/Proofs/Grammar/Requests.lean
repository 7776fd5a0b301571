import Mathlib.Data.List.Nodup
import RawHtmlLint.Grammar.Registry
import RawHtmlLint.Proofs.Lookup

/-!
# Requests to a registry

A registry is asked many things one after the other, and keeps the parsers it makes. What it kept
is looked up before the names are, so its answers could come to depend on what was asked before.
They do not: every parser that is kept was made for the language its name stands for, and no two
names share one.

Results:
* `lookup_table_iff`: which names stand for which language in a new registry;
* `get_cases`: what a request for a parser can do;
* `Consistent.after`: what holds in every state that requests lead to;
* `requests_answered`: what that says of the answers.
-/

namespace RawHtmlLint.Grammar

/-- The name stands for the language: but for letter case it is the language's name or one of its
short names. -/
def Language.KnownAs (l : Language) (name : String) : Prop :=
  Registry.key name ∈ l.name :: l.aliases

namespace Registry

/-- The registry after the requests. -/
def after (r : Registry) : List Request → Registry
  | [] => r
  | request :: requests => (r.answer request).2.after requests

variable {loads : Language → Bool} {r : Registry}

/-! ## The names of a new registry -/

theorem register_loaded {l : Language} (h : loads l = true) :
    (register loads r l).1 = { r with table := r.table ++ (l.name :: l.aliases).map (·, l) } := by
  rw [register, if_pos h]

/-- The names of the languages that can be loaded, each with its language. -/
def namesOf (loads : Language → Bool) (ls : List Language) : List (String × Language) :=
  (ls.filter loads).flatMap fun l => (l.name :: l.aliases).map (·, l)

theorem new_fold (ls : List Language) (r : Registry) (events : List Event) :
    (ls.foldl (fun (r, events) l =>
      let (r, event) := register loads r l
      (r, events ++ [event])) (r, events)).1 = { r with table := r.table ++ namesOf loads ls } := by
  induction ls generalizing r events with
  | nil => simp [namesOf]
  | cons l ls ih =>
    rw [List.foldl_cons, ih]
    cases h : loads l with
    | true => simp [register_loaded h, namesOf, h]
    | false => simp [register, namesOf, h]

theorem new_eq (loads : Language → Bool) :
    (new loads).1 = { table := namesOf loads Language.all } :=
  new_fold Language.all {} []

theorem nodup_namesOf (loads : Language → Bool) :
    ((namesOf loads Language.all).map (·.1)).Nodup := by
  have hnames (l : Language) :
      ((l.name :: l.aliases).map (·, l)).map (·.1) = l.name :: l.aliases := by
    rw [List.map_map]
    exact List.map_id _
  have hall : (Language.all.flatMap fun l => l.name :: l.aliases).Nodup := by decide
  unfold namesOf
  simp only [List.map_flatMap, hnames]
  rw [List.nodup_flatMap] at hall ⊢
  exact ⟨fun l hl => hall.1 l (List.mem_of_mem_filter hl), hall.2.sublist List.filter_sublist⟩

theorem mem_namesOf_iff {name : String} {l : Language} : (name, l) ∈ namesOf loads Language.all ↔
    loads l = true ∧ name ∈ l.name :: l.aliases := by
  have hall : l ∈ Language.all := by cases l <;> decide
  unfold namesOf
  rw [List.mem_flatMap]
  constructor
  · rintro ⟨m, hm, hname⟩
    obtain ⟨n, hn, heq⟩ := List.mem_map.mp hname
    cases heq
    exact ⟨(List.mem_filter.mp hm).2, hn⟩
  · rintro ⟨hload, hname⟩
    exact ⟨l, List.mem_filter.mpr ⟨hall, hload⟩, List.mem_map.mpr ⟨name, hname, rfl⟩⟩

/-- **Which names stand for which language**: those of the languages that could be loaded. -/
theorem lookup_table_iff {name : String} {l : Language} :
    (new loads).1.table.lookup (key name) = some l ↔ loads l = true ∧ l.KnownAs name := by
  rw [new_eq, lookup_eq_some_iff_mem (nodup_namesOf loads), mem_namesOf_iff]
  rfl

/-! ## One request -/

/-- **What a request for a parser can do**: give a parser that was made before, make one and keep
it under the name, or fail and change nothing. -/
theorem get_cases (r : Registry) (name : String) :
    (∃ p, r.made.lookup (key name) = some p ∧ r.get name = (.ok p, r)) ∨
      (∃ l, r.made.lookup (key name) = none ∧ r.table.lookup (key name) = some l ∧
        r.get name = (.ok ⟨l, r.made.length⟩,
          { r with made := r.made ++ [(key name, ⟨l, r.made.length⟩)] })) ∨
      (r.made.lookup (key name) = none ∧ r.table.lookup (key name) = none ∧
        r.get name = (.error (r.unavailable name), r)) := by
  unfold get
  cases hmade : r.made.lookup (key name) with
  | some p => exact .inl ⟨p, rfl, rfl⟩
  | none =>
    cases htable : r.table.lookup (key name) with
    | some l => exact .inr (.inl ⟨l, rfl, rfl, rfl⟩)
    | none => exact .inr (.inr ⟨rfl, rfl, rfl⟩)

/-- What holds of a registry with these grammars, whatever it was asked for. -/
structure Consistent (loads : Language → Bool) (r : Registry) : Prop where
  table_eq : r.table = (new loads).1.table
  /-- A name has one parser. -/
  nodup : (r.made.map (·.1)).Nodup
  /-- The parsers are numbered in the order of their making. -/
  numbered : r.made.map (·.2.number) = List.range r.made.length
  /-- A parser is for the language that its name stands for. -/
  known : ∀ e ∈ r.made, r.table.lookup e.1 = some e.2.language

theorem consistent_new (loads : Language → Bool) : Consistent loads (new loads).1 where
  table_eq := rfl
  nodup := by rw [new_eq]; exact List.nodup_nil
  numbered := by rw [new_eq]; rfl
  known e he := by rw [new_eq] at he; exact absurd he List.not_mem_nil

namespace Consistent

/-- **A request keeps what holds of the registry.** -/
theorem get (h : Consistent loads r) (name : String) : Consistent loads (r.get name).2 := by
  rcases get_cases r name with ⟨p, _, hget⟩ | ⟨l, hmade, htable, hget⟩ | ⟨_, _, hget⟩
  · rw [hget]
    exact h
  · rw [hget]
    refine ⟨h.table_eq, ?_, ?_, ?_⟩
    · dsimp only
      rw [List.map_append]
      refine List.nodup_append.mpr ⟨h.nodup, List.nodup_singleton _, ?_⟩
      rintro _ hm _ hn rfl
      obtain rfl := List.mem_singleton.mp hn
      exact lookup_eq_none_iff_not_mem.mp hmade hm
    · dsimp only
      rw [List.map_append, h.numbered, List.length_append, List.length_singleton, List.range_succ]
      rfl
    · intro e he
      rcases List.mem_append.mp he with he | he
      · exact h.known e he
      · obtain rfl := List.mem_singleton.mp he
        exact htable
  · rw [hget]
    exact h

theorem answer (h : Consistent loads r) : ∀ request : Request, Consistent loads (r.answer request).2
  | .get name => h.get name
  | .supports _ | .supported => h

/-- **What holds in every state that requests lead to.** -/
theorem after {r : Registry} (h : Consistent loads r) (requests : List Request) :
    Consistent loads (r.after requests) := by
  induction requests generalizing r with
  | nil => exact h
  | cons request requests ih => exact ih (h.answer request)

/-- What was kept and what the names stand for never disagree. -/
theorem get_language_iff (h : Consistent loads r) {name : String} {l : Language} :
    (∃ p, (r.get name).1 = .ok p ∧ p.language = l) ↔ r.table.lookup (key name) = some l := by
  rcases get_cases r name with ⟨p, hmade, hget⟩ | ⟨m, _, htable, hget⟩ | ⟨_, htable, hget⟩
  · have hknown := h.known _ ((lookup_eq_some_iff_mem h.nodup).mp hmade)
    dsimp only at hknown
    rw [hget, hknown]
    constructor
    · rintro ⟨q, hq, rfl⟩
      cases hq
      rfl
    · intro hl
      exact ⟨p, rfl, Option.some.inj hl⟩
  · rw [hget, htable]
    constructor
    · rintro ⟨q, hq, rfl⟩
      cases hq
      rfl
    · intro hl
      exact ⟨_, rfl, Option.some.inj hl⟩
  · rw [hget, htable]
    constructor
    · rintro ⟨q, hq, _⟩
      cases hq
    · intro hl
      cases hl

/-- **A parser is given exactly for the supported names.** -/
theorem get_ok_iff (h : Consistent loads r) {name : String} :
    (∃ p, (r.get name).1 = .ok p) ↔ r.supports name = true := by
  unfold supports language?
  rw [Option.isSome_iff_exists]
  simp only [← h.get_language_iff]
  constructor
  · rintro ⟨p, hp⟩
    exact ⟨p.language, p, hp, rfl⟩
  · rintro ⟨_, p, hp, _⟩
    exact ⟨p, hp⟩

/-- A parser is kept under one name. -/
theorem key_eq_of_lookup (h : Consistent loads r) {j k : String} {p : Parser}
    (hj : r.made.lookup j = some p) (hk : r.made.lookup k = some p) : j = k := by
  have hnumbers : (r.made.map (·.2.number)).Nodup := h.numbered ▸ List.nodup_range
  have hmem := (lookup_eq_some_iff_mem h.nodup).mp hj
  have hmem' := (lookup_eq_some_iff_mem h.nodup).mp hk
  exact congrArg Prod.fst (List.inj_on_of_nodup_map hnumbers hmem hmem' rfl)

end Consistent

/-! ## Many requests -/

theorem made_prefix_get (r : Registry) (name : String) : r.made <+: (r.get name).2.made := by
  rcases get_cases r name with ⟨p, _, hget⟩ | ⟨l, _, _, hget⟩ | ⟨_, _, hget⟩
  · simp only [hget, List.prefix_rfl]
  · simp only [hget, List.prefix_append]
  · simp only [hget, List.prefix_rfl]

theorem made_prefix_answer (r : Registry) : ∀ request : Request,
    r.made <+: (r.answer request).2.made
  | .get name => made_prefix_get r name
  | .supports _ | .supported => List.prefix_rfl

/-- **A parser that was made is kept.** -/
theorem made_prefix_after : ∀ (requests : List Request) (r : Registry),
    r.made <+: (r.after requests).made
  | [], _ => List.prefix_rfl
  | request :: requests, r =>
    (made_prefix_answer r request).trans (made_prefix_after requests (r.answer request).2)

theorem lookup_of_get {name : String} {p : Parser} (h : (r.get name).1 = .ok p) :
    (r.get name).2.made.lookup (key name) = some p := by
  rcases get_cases r name with ⟨q, hmade, hget⟩ | ⟨l, hmade, _, hget⟩ | ⟨_, _, hget⟩
  · rw [hget] at h ⊢
    cases h
    exact hmade
  · rw [hget] at h ⊢
    cases h
    dsimp only
    rw [List.lookup_append, hmade, List.lookup_cons_self]
    rfl
  · rw [hget] at h
    cases h

theorem after_append : ∀ (before later : List Request) (r : Registry),
    r.after (before ++ later) = (r.after before).after later
  | [], _, _ => rfl
  | request :: before, later, r => after_append before later (r.answer request).2

theorem answers_append : ∀ (before later : List Request) (r : Registry),
    r.answers (before ++ later) = r.answers before ++ (r.after before).answers later
  | [], _, _ => rfl
  | request :: before, later, r => by
    rw [List.cons_append, answers, answers, answers_append before later, List.cons_append]
    rfl

theorem length_answers : ∀ (requests : List Request) (r : Registry),
    (r.answers requests).length = requests.length
  | [], _ => rfl
  | request :: requests, r => congrArg (· + 1) (length_answers requests (r.answer request).2)

/-- The request at `i` asks for the parser of a name, and gets one. -/
def Gives (r : Registry) (requests : List Request) (i : Nat) (name : String) (p : Parser) : Prop :=
  requests[i]? = some (.get name) ∧ (r.answers requests)[i]? = some (.parser (.ok p))

/-- What was given once is kept. -/
theorem Gives.lookup {requests : List Request} {i : Nat} {name : String} {p : Parser}
    (h : r.Gives requests i name p) : (r.after requests).made.lookup (key name) = some p := by
  obtain ⟨hrequest, hanswer⟩ := h
  obtain ⟨hlt, hget⟩ := List.getElem?_eq_some_iff.mp hrequest
  -- the requests before the one at `i`, it, and those after it
  have hsplit : requests = requests.take i ++ .get name :: requests.drop (i + 1) := by
    rw [← hget, List.getElem_cons_drop, List.take_append_drop]
  have hlength : (r.answers (requests.take i)).length = i := by
    rw [length_answers, List.length_take_of_le (Nat.le_of_lt hlt)]
  rw [hsplit, answers_append, List.getElem?_append_right (Nat.le_of_eq hlength), hlength,
    Nat.sub_self] at hanswer
  have hok : ((r.after (requests.take i)).get name).1 = .ok p :=
    Answer.parser.inj (Option.some.inj hanswer)
  rw [hsplit, after_append, after]
  exact lookup_of_isPrefix (made_prefix_after _ _) (lookup_of_get hok)

/-- Two parsers that were given are the same one exactly if the names are the same but for letter
case. -/
theorem Gives.eq_iff {requests : List Request} {i j : Nat} {m n : String} {p q : Parser}
    (hr : Consistent loads r) (hp : r.Gives requests i m p) (hq : r.Gives requests j n q) :
    p = q ↔ key m = key n := by
  constructor
  · rintro rfl
    exact (hr.after requests).key_eq_of_lookup hp.lookup hq.lookup
  · intro hkey
    exact Option.some.inj (hp.lookup.symm.trans (hkey ▸ hq.lookup))

/-- **A request that fails changes nothing.** -/
theorem answer_get_of_fails {name : String} (h : ∀ p, (r.get name).1 ≠ .ok p) :
    r.answer (.get name) = (.parser (.error (r.unavailable name)), r) := by
  rcases get_cases r name with ⟨p, _, hget⟩ | ⟨l, _, _, hget⟩ | ⟨_, _, hget⟩
  · exact absurd (congrArg Prod.fst hget) (h p)
  · exact absurd (congrArg Prod.fst hget) (h _)
  · rw [answer, hget]

/-- **The answers to requests** depend on the grammars that were loaded, and on nothing that was
asked before. After any requests a parser is given for a name exactly if the name is supported; it
is for the language that the name stands for, and a name works, short or not, exactly if that
language could be loaded. Two parsers that were given are the same one exactly if the names are the
same but for letter case. A request that fails changes none of the answers after it. -/
theorem requests_answered (loads : Language → Bool) (requests : List Request) :
    let start := (new loads).1
    let r := start.after requests
    (∀ name, (∃ p, (r.get name).1 = .ok p) ↔ r.supports name = true) ∧
      (∀ name l, (∃ p, (r.get name).1 = .ok p ∧ p.language = l) ↔
        loads l = true ∧ l.KnownAs name) ∧
      (∀ i j m n p q, start.Gives requests i m p → start.Gives requests j n q →
        (p = q ↔ key m = key n)) ∧
      ∀ name later, (∀ p, (r.get name).1 ≠ .ok p) →
        start.answers (requests ++ later) = start.answers requests ++ r.answers later ∧
          start.answers (requests ++ .get name :: later) =
            start.answers requests ++ .parser (.error (r.unavailable name)) :: r.answers later := by
  intro start r
  have hstart : Consistent loads start := consistent_new loads
  have hr : Consistent loads r := hstart.after requests
  refine ⟨fun name => hr.get_ok_iff, fun name l => ?_, fun i j m n p q hp hq => ?_,
    fun name later hfails => ⟨answers_append _ _ _, ?_⟩⟩
  · rw [hr.get_language_iff, hr.table_eq, lookup_table_iff]
  · exact Gives.eq_iff hstart hp hq
  · rw [answers_append, answers, answer_get_of_fails hfails]

/-- Requests to a registry that could not load one of the script languages, under names of any
letter case. -/
def mixedRequests : List Request :=
  [.get "JS", .get "TS", .get "JavaScript", .supports "ts", .supported, .get "js"]

theorem requests_mixed :
    let loads (l : Language) : Bool := l != .typescript
    let start := (new loads).1
    start.Gives mixedRequests 0 "JS" ⟨.javascript, 0⟩ ∧
      start.Gives mixedRequests 2 "JavaScript" ⟨.javascript, 1⟩ ∧
      start.Gives mixedRequests 5 "js" ⟨.javascript, 0⟩ ∧ key "JS" = key "js" ∧
      key "JS" ≠ key "JavaScript" ∧
      (∀ p, ((start.after [.get "JS"]).get "TS").1 ≠ .ok p) ∧
      start.answers mixedRequests = start.answers [.get "JS"] ++
        .parser (.error ((start.after [.get "JS"]).unavailable "TS")) ::
          (start.after [.get "JS"]).answers (mixedRequests.drop 2) := by
  intro loads start
  have hfirst : start.Gives mixedRequests 0 "JS" ⟨.javascript, 0⟩ := ⟨rfl, rfl⟩
  have hsecond : start.Gives mixedRequests 2 "JavaScript" ⟨.javascript, 1⟩ := ⟨rfl, rfl⟩
  have hlast : start.Gives mixedRequests 5 "js" ⟨.javascript, 0⟩ := ⟨rfl, rfl⟩
  have hfails : ∀ p, ((start.after [.get "JS"]).get "TS").1 ≠ .ok p := fun _ h => nomatch h
  obtain ⟨_, _, hsame, _⟩ := requests_answered loads mixedRequests
  obtain ⟨_, _, _, hlater⟩ := requests_answered loads [.get "JS"]
  refine ⟨hfirst, hsecond, hlast, (hsame 0 5 _ _ _ _ hfirst hlast).mp rfl, ?_, hfails,
    (hlater "TS" (mixedRequests.drop 2) hfails).2⟩
  intro hkey
  exact absurd ((hsame 0 2 _ _ _ _ hfirst hsecond).mpr hkey) (by decide)

end Registry

end RawHtmlLint.Grammar
