import StubGen.TypeRef

/-!
# Laws of substitution in references

A substitution only matters at the variables that occur in a reference, and the variables that occur
after it are those of what it puts in their places.

Main results:

* `bind_congr` — substitutions that agree on a reference's variables give the same reference;
* `bind_bind` — a substitution after another one;
* `bind_eq_of_bind_eq_bind` — references that become one when their variables are renamed;
* `mem_vars_bind` — the variables of a reference after a substitution;
* `mem_names_bind` — the names in a reference after a substitution.
-/

namespace StubGen.TypeRef

variable {f g : TypeVar → TypeRef} {w : TypeVar}

mutual

theorem bind_congr : ∀ {t : TypeRef}, (∀ v ∈ t.vars, f v = g v) → t.bind f = t.bind g
  | named _, _ => rfl
  | array c, h => by
    have hc : ∀ v ∈ c.vars, f v = g v := h
    rw [bind, bind, bind_congr hc]
  | var v, h => h v (List.mem_singleton.2 rfl)
  | wildcard _ bs, h => by
    have hbs : ∀ v ∈ varsAll bs, f v = g v := h
    rw [bind, bind, bindAll_congr hbs]
  | parameterized _ as, h => by
    have has : ∀ v ∈ varsAll as, f v = g v := h
    rw [bind, bind, bindAll_congr has]

theorem bindAll_congr : ∀ {ts : List TypeRef}, (∀ v ∈ varsAll ts, f v = g v) →
    bindAll f ts = bindAll g ts
  | [], _ => rfl
  | t :: ts, h => by
    have ht : ∀ v ∈ t.vars, f v = g v := fun v hv => h v (List.mem_append_left _ hv)
    have hts : ∀ v ∈ varsAll ts, f v = g v := fun v hv => h v (List.mem_append_right _ hv)
    rw [bindAll, bindAll, bind_congr ht, bindAll_congr hts]

end

mutual

theorem bind_bind : ∀ (t : TypeRef), (t.bind f).bind g = t.bind fun v => (f v).bind g
  | named _ => rfl
  | array c => by rw [bind, bind, bind, bind_bind c]
  | var _ => rfl
  | wildcard _ bs => by rw [bind, bind, bind, bindAll_bindAll bs]
  | parameterized _ as => by rw [bind, bind, bind, bindAll_bindAll as]

theorem bindAll_bindAll : ∀ (ts : List TypeRef),
    bindAll g (bindAll f ts) = bindAll (fun v => (f v).bind g) ts
  | [] => rfl
  | t :: ts => by rw [bindAll, bindAll, bindAll, bind_bind t, bindAll_bindAll ts]

end

mutual

/-- Every variable in its own place. -/
theorem bind_var : ∀ (t : TypeRef), t.bind var = t
  | named _ => rfl
  | array c => by rw [bind, bind_var c]
  | var _ => rfl
  | wildcard _ bs => by rw [bind, bindAll_var bs]
  | parameterized _ as => by rw [bind, bindAll_var as]

theorem bindAll_var : ∀ (ts : List TypeRef), bindAll var ts = ts
  | [] => rfl
  | t :: ts => by rw [bindAll, bind_var t, bindAll_var ts]

end

mutual

/-- Two references become one when their variables are renamed. Then they have one shape, and to
give each variable of the first the name of the one that it falls together with gives the second. -/
theorem bind_eq_of_bind_eq_bind {h : TypeVar → TypeRef} (hf : ∀ v, ∃ x, f v = var x)
    (hg : ∀ v, ∃ x, g v = var x) : ∀ {t u : TypeRef}, t.bind f = u.bind g →
    (∀ v ∈ t.vars, ∀ w ∈ u.vars, f v = g w → h v = var w) → t.bind h = u
  -- on both sides there is a variable where there is one on either, since only variables become
  -- variables
  | var v, u, heq, hh => by
    obtain ⟨x, hx⟩ := hf v
    cases u with
    | var w => exact hh v (List.mem_singleton.2 rfl) w (List.mem_singleton.2 rfl) heq
    | named _ | array _ | wildcard _ _ | parameterized _ _ => simp [bind, hx] at heq
  | t, var w, heq, hh => by
    obtain ⟨x, hx⟩ := hg w
    cases t with
    | var v => exact hh v (List.mem_singleton.2 rfl) w (List.mem_singleton.2 rfl) heq
    | named _ | array _ | wildcard _ _ | parameterized _ _ => simp [bind, hx] at heq
  | named n, named m, heq, _ => heq
  | array c, array d, heq, hh => by
    rw [bind, bind, array.injEq] at heq
    rw [bind, bind_eq_of_bind_eq_bind hf hg heq hh]
  | wildcard k bs, wildcard l cs, heq, hh => by
    rw [bind, bind, wildcard.injEq] at heq
    rw [bind, heq.1, bindAll_eq_of_bindAll_eq_bindAll hf hg heq.2 hh]
  | parameterized n as, parameterized m bs, heq, hh => by
    rw [bind, bind, parameterized.injEq] at heq
    rw [bind, heq.1, bindAll_eq_of_bindAll_eq_bindAll hf hg heq.2 hh]

theorem bindAll_eq_of_bindAll_eq_bindAll {h : TypeVar → TypeRef} (hf : ∀ v, ∃ x, f v = var x)
    (hg : ∀ v, ∃ x, g v = var x) : ∀ {ts us : List TypeRef}, bindAll f ts = bindAll g us →
    (∀ v ∈ varsAll ts, ∀ w ∈ varsAll us, f v = g w → h v = var w) → bindAll h ts = us
  | [], [], _, _ => rfl
  | t :: ts, u :: us, heq, hh => by
    rw [bindAll, bindAll, List.cons.injEq] at heq
    have ht := bind_eq_of_bind_eq_bind hf hg heq.1 fun v hv w hw =>
      hh v (List.mem_append_left _ hv) w (List.mem_append_left _ hw)
    have hts := bindAll_eq_of_bindAll_eq_bindAll hf hg heq.2 fun v hv w hw =>
      hh v (List.mem_append_right _ hv) w (List.mem_append_right _ hw)
    rw [bindAll, ht, hts]

end

mutual

theorem mem_vars_bind : ∀ {t : TypeRef}, w ∈ (t.bind f).vars ↔ ∃ v ∈ t.vars, w ∈ (f v).vars
  | named _ => by simp [bind, vars]
  | array c => by
    rw [bind, vars, vars]
    exact mem_vars_bind
  | var v => by simp [bind, vars]
  | wildcard _ bs => by
    rw [bind, vars, vars]
    exact mem_varsAll_bindAll
  | parameterized _ as => by
    rw [bind, vars, vars]
    exact mem_varsAll_bindAll

theorem mem_varsAll_bindAll : ∀ {ts : List TypeRef},
    w ∈ varsAll (bindAll f ts) ↔ ∃ v ∈ varsAll ts, w ∈ (f v).vars
  | [] => by simp [bindAll, varsAll]
  | t :: ts => by
    rw [bindAll, varsAll, List.mem_append, mem_vars_bind, mem_varsAll_bindAll, varsAll]
    simp only [List.mem_append, or_and_right, exists_or]

end

theorem mem_varsAll_iff {ts : List TypeRef} : w ∈ varsAll ts ↔ ∃ t ∈ ts, w ∈ t.vars := by
  induction ts with
  | nil => simp [varsAll]
  | cons t ts ih =>
    rw [varsAll, List.mem_append, ih]
    simp

/-! ## Names -/

mutual

/-- The raw names that occur in a reference, in order and with repetitions. -/
def names : TypeRef → List BinaryName
  | named n => [n]
  | array c => names c
  | var _ => []
  | wildcard _ bs => namesAll bs
  | parameterized n as => n :: namesAll as

/-- The raw names that occur in a list of references. -/
def namesAll : List TypeRef → List BinaryName
  | [] => []
  | t :: ts => names t ++ namesAll ts

end

variable {n : BinaryName}

theorem mem_names_of_rawName? {t : TypeRef} (h : t.rawName? = some n) : n ∈ t.names := by
  cases t with
  | named m => exact List.mem_singleton.2 (Option.some.inj h).symm
  | parameterized m as => exact List.mem_cons.2 (.inl (Option.some.inj h).symm)
  | array c | var v | wildcard k bs => cases h

theorem mem_namesAll_iff {ts : List TypeRef} : n ∈ namesAll ts ↔ ∃ t ∈ ts, n ∈ t.names := by
  induction ts with
  | nil => simp [namesAll]
  | cons t ts ih =>
    rw [namesAll, List.mem_append, ih]
    simp

theorem mem_names_of_mem_args {raw : BinaryName} {as : List TypeRef} {u : TypeRef} (hu : u ∈ as)
    (hn : n ∈ u.names) : n ∈ (parameterized raw as).names :=
  List.mem_cons_of_mem _ (mem_namesAll_iff.2 ⟨u, hu, hn⟩)

mutual

theorem mem_names_bind : ∀ {t : TypeRef},
    n ∈ (t.bind f).names ↔ n ∈ t.names ∨ ∃ v ∈ t.vars, n ∈ (f v).names
  | named _ => by simp [bind, names, vars]
  | array c => by
    rw [bind, names, names, vars]
    exact mem_names_bind
  | var v => by simp [bind, names, vars]
  | wildcard _ bs => by
    rw [bind, names, names, vars]
    exact mem_namesAll_bindAll
  | parameterized _ as => by
    rw [bind, names, names, vars, List.mem_cons, List.mem_cons, mem_namesAll_bindAll, or_assoc]

theorem mem_namesAll_bindAll : ∀ {ts : List TypeRef},
    n ∈ namesAll (bindAll f ts) ↔ n ∈ namesAll ts ∨ ∃ v ∈ varsAll ts, n ∈ (f v).names
  | [] => by simp [bindAll, namesAll, varsAll]
  | t :: ts => by
    rw [bindAll, namesAll, namesAll, varsAll, List.mem_append, List.mem_append, mem_names_bind,
      mem_namesAll_bindAll]
    simp only [List.mem_append, or_and_right, exists_or]
    exact or_or_or_comm

end

end StubGen.TypeRef
