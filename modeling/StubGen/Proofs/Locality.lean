import StubGen.Proofs.Hierarchy.Mapping
import StubGen.Proofs.LastBinding
import StubGen.Proofs.Render.Alike
import StubGen.Proofs.Writing

/-!
# What an implementation depends on

To implement a type, a generator looks up names: those in the supertype clauses that it follows, and
those in the references that it writes, each with everything that encloses it. All of them are named
in the declarations that the type inherits from, its own among them. A registry that has the same to
say about these names gives the same implementation, or fails in the same way, whatever else it
declares and in whatever order.

Main results:

* `Footprint.of_mem_resolve` — resolving a reference leads to no names from elsewhere;
* `Footprint.steps_eq`, `Footprint.pieces_eq` — the same walk is taken and the same pieces written;
* `Registry.agreesOn_of_edits` — changes elsewhere keep what is found in the footprint;
* `Generator.sameFor_of_footprint` — the footprint decides the outcome.
-/

namespace StubGen

open Relation

/-! ## Footprints -/

/-- The references in a type's declaration: its clauses, and those of its members. -/
def Declaration.references (d : Declaration) : List TypeRef :=
  d.supertypes ++ d.ownReferences ++ d.methods.flatMap Method.references

theorem Declaration.mem_references_iff {d : Declaration} {t : TypeRef} :
    t ∈ d.references ↔
      t ∈ d.supertypes ∨ t ∈ d.ownReferences ∨ ∃ m ∈ d.methods, t ∈ m.references := by
  rw [references, List.mem_append, List.mem_append, List.mem_flatMap, or_assoc]

/-- The names that an implementation of `n` depends on: `n` itself; the names in the declaration of
`n` and of any type that it inherits from; and what encloses one of these. -/
inductive Footprint (r : Registry) (n : BinaryName) : BinaryName → Prop
  | target : Footprint r n n
  | mention {target d : Declaration} {t : TypeRef} {m : BinaryName}
      (htarget : r.lookup n = some target) (hd : ReflTransGen (Hierarchy.Parent r) target d)
      (ht : t ∈ d.references) (hm : m ∈ t.names) : Footprint r n m
  | enclosing {m e : BinaryName} (hm : Footprint r n m) (he : m.enclosing? = some e) :
      Footprint r n e

/-! ## Registries that agree -/

namespace Registry

variable {P : BinaryName → Prop} {r r' : Registry}

/-- The registries declare the same under every name with `P`. -/
def AgreesOn (P : BinaryName → Prop) (r r' : Registry) : Prop := ∀ m, P m → r'.lookup m = r.lookup m

/-- A declaration is added, removed, replaced or moved, somewhere and not under a name with `P`. -/
inductive Edit (P : BinaryName → Prop) : Registry → Registry → Prop
  | add {before after : List Declaration} {d : Declaration} (hd : ¬ P d.name) :
      Edit P ⟨before ++ after⟩ ⟨before ++ d :: after⟩
  | remove {before after : List Declaration} {d : Declaration} (hd : ¬ P d.name) :
      Edit P ⟨before ++ d :: after⟩ ⟨before ++ after⟩
  | replace {before after : List Declaration} {d e : Declaration} (hd : ¬ P d.name)
      (he : ¬ P e.name) : Edit P ⟨before ++ d :: after⟩ ⟨before ++ e :: after⟩
  | move {before after before' after' : List Declaration} {d : Declaration} (hd : ¬ P d.name)
      (hrest : before' ++ after' = before ++ after) :
      Edit P ⟨before ++ d :: after⟩ ⟨before' ++ d :: after'⟩

/-- A declaration of another name may stand anywhere. -/
theorem lookup_insert_of_ne {before after : List Declaration} {d : Declaration} {m : BinaryName}
    (hne : d.name ≠ m) :
    lookup ⟨before ++ d :: after⟩ m = lookup ⟨before ++ after⟩ m := by
  have hd : (d.name == m) = false := by simpa using hne
  rw [lookup, lookup, List.find?_append, List.find?_append, List.find?_cons, hd]

theorem Edit.agreesOn (h : Edit P r r') : r.AgreesOn P r' := by
  intro m hm
  have hne : ∀ {d : Declaration}, ¬ P d.name → d.name ≠ m := fun hd heq => hd (heq ▸ hm)
  cases h with
  | add hd => exact lookup_insert_of_ne (hne hd)
  | remove hd => exact (lookup_insert_of_ne (hne hd)).symm
  | replace hd he => rw [lookup_insert_of_ne (hne hd), lookup_insert_of_ne (hne he)]
  | move hd hrest => rw [lookup_insert_of_ne (hne hd), lookup_insert_of_ne (hne hd), hrest]

theorem agreesOn_of_edits (h : ReflTransGen (Edit P) r r') : r.AgreesOn P r' := by
  induction h with
  | refl => exact fun _ _ => rfl
  | tail _ hedit ih => exact fun m hm => (hedit.agreesOn m hm).trans (ih m hm)

/-- A declaration that is put in replaces one of its name, or stands last. -/
theorem edit_put {d : Declaration} (hd : ¬ P d.name) (r : Registry) : Edit P r (r.put d) := by
  obtain ⟨ds⟩ := r
  -- what stands before the declarations still to be compared is carried along
  suffices h : ∀ before, Edit P ⟨before ++ ds⟩ ⟨before ++ putIn d ds⟩ from h []
  induction ds with
  | nil => exact fun before => .add hd
  | cons e es ih =>
    intro before
    rw [putIn]
    split
    · rename_i heq
      exact .replace (heq ▸ hd) hd
    · simpa using ih (before ++ [e])

end Registry

/-! ## Names that are looked up -/

namespace Footprint

variable {r r' : Registry} {target d : Declaration} {t : TypeRef} {m : BinaryName}

/-- A reference of an inherited declaration resolves to names of its own, and to those of arguments
in supertype clauses of inherited declarations. -/
theorem of_mem_resolve (htarget : r.lookup target.name = some target)
    (hd : ReflTransGen (Hierarchy.Parent r) target d) (ht : t ∈ d.references)
    (hm : m ∈ ((Closure.substitution r target).resolve t).names) : Footprint r target.name m := by
  rcases Substitution.mem_names_resolveUnder hm with hm | ⟨v, u, hu, hm⟩
  · exact .mention htarget hd ht hm
  · -- what a variable is bound to is an argument in a clause on the walk, as it stands there
    obtain ⟨e, p, he, raw, args, hclause, -, hzip⟩ := Closure.exists_supplies_of_get? htarget hu
    have hreference : .parameterized raw args ∈ e.references :=
      Declaration.mem_references_iff.2 (.inl hclause)
    have hargument : u ∈ args := (List.of_mem_zip hzip).2
    exact .mention htarget he hreference (TypeRef.mem_names_of_mem_args hargument hm)

section

variable (htarget : r.lookup target.name = some target)
  (hagree : r.AgreesOn (Footprint r target.name) r')

include hagree in
/-- The name of a type is written after what is declared of the type and of all that encloses it. -/
theorem renderName_eq (s s' : Substitution) (hm : Footprint r target.name m) :
    Scope.renderName ⟨r', s'⟩ m = Scope.renderName ⟨r, s⟩ m := by
  refine Scope.renderName_congr (fun _ _ => .enclosing) (fun k hk => ?_) m hm
  exact congrArg _ (hagree k hk)

include htarget hagree

/-! ## Bindings and members -/

theorem steps_eq :
    Hierarchy.steps r' Declaration.supertypes target =
      Hierarchy.steps r Declaration.supertypes target := by
  refine Hierarchy.steps_congr fun d hd t ht n hn => hagree n ?_
  have hreference : t ∈ d.references := Declaration.mem_references_iff.2 (.inl ht)
  exact .mention htarget hd hreference (TypeRef.mem_names_of_rawName? hn)

theorem substitution_eq : Closure.substitution r' target = Closure.substitution r target := by
  rw [Closure.substitution, Closure.substitution, steps_eq htarget hagree]

theorem malformed_eq : Closure.malformed r' target = Closure.malformed r target := by
  rw [Closure.malformed, Closure.malformed, steps_eq htarget hagree]

theorem preorder_eq : Hierarchy.preorder r' target = Hierarchy.preorder r target := by
  rw [Hierarchy.preorder, Hierarchy.preorder, Hierarchy.visited, Hierarchy.visited,
    steps_eq htarget hagree]

/-- The chain of superclasses only leads to supertypes. -/
theorem chain_eq : Hierarchy.chain r' target = Hierarchy.chain r target := by
  refine Hierarchy.visited_congr fun d hd t ht n hn => hagree n ?_
  have hinherited : ReflTransGen (Hierarchy.Parent r) target d :=
    ReflTransGen.mono (fun _ _ => Hierarchy.parent_of_superclass) _ _ hd
  have hreference : t ∈ d.references :=
    Declaration.mem_references_iff.2 (.inl (List.mem_append_left _ ht))
  exact .mention htarget hinherited hreference (TypeRef.mem_names_of_rawName? hn)

theorem resolve_eq (s : Substitution) :
    Members.resolve r' s target = Members.resolve r s target := by
  have hoffers : Members.offers r' target = Members.offers r target := by
    rw [Members.offers, Members.offers, preorder_eq htarget hagree, chain_eq htarget hagree]
  rw [Members.resolve, Members.resolve, Members.resolveMethods, Members.resolveMethods, hoffers]

/-! ## Pieces -/

/-- A reference stands in the declaration of an inherited type. -/
def Inherits (r : Registry) (target : Declaration) (t : TypeRef) : Prop :=
  ∃ d, ReflTransGen (Hierarchy.Parent r) target d ∧ t ∈ d.references

theorem alike :
    Scope.Alike id (Inherits r target) ⟨r, Closure.substitution r target⟩
      ⟨r', Closure.substitution r' target⟩ where
  resolve t _ := by
    show (Closure.substitution r' target).resolve t = _
    rw [substitution_eq htarget hagree]
  renderName t ht m hm := by
    obtain ⟨d, hd, ht⟩ := ht
    exact renderName_eq hagree _ _ (of_mem_resolve htarget hd ht hm)
  isObject _ := rfl
  defaultValue _ := rfl

/-- The text of an implementation is the same in both registries. All that it is made of is the
target's own or some ancestor's, and whatever these refer to is in the footprint. -/
theorem pieces_eq (suffix : String) {ms : Members}
    (hms : Members.resolve r (Closure.substitution r target) target = .ok ms) :
    Stub.pieces ⟨target, ⟨r', Closure.substitution r' target⟩, suffix⟩ ms =
      Stub.pieces ⟨target, ⟨r, Closure.substitution r target⟩, suffix⟩ ms := by
  obtain ⟨fs, hfs, hmk⟩ := Except.bind_eq_ok_iff.1 hms
  cases hmk
  -- constructors are those of the target, methods come from anything that it inherits from
  have hown : ∀ t ∈ target.ownReferences, Inherits r target t := fun t ht =>
    ⟨target, .refl, Declaration.mem_references_iff.2 (.inr (.inl ht))⟩
  -- that is what the constructors, the methods and the bounds refer to
  have hforwarded : ∀ f ∈ fs, ∀ t ∈ f.constructor.references, Inherits r target t :=
    fun f hf t ht => hown t (Members.mem_ownReferences_of_mem_resolveConstructors hfs hf ht)
  have hoverridden : ∀ c ∈ Members.resolveMethods r (Closure.substitution r target) target,
      ∀ t ∈ c.method.references, Inherits r target t := by
    intro c hc t ht
    obtain ⟨d, m, hvisible, rfl⟩ := Members.visible_of_mem_resolveMethods htarget hc
    rw [Members.references_offered] at ht
    have hreference : t ∈ d.references :=
      Declaration.mem_references_iff.2 (.inr (.inr ⟨m, hvisible.1, ht⟩))
    exact ⟨d, hvisible.reachable, hreference⟩
  have hbounds : ∀ t ∈ target.typeParams.flatMap (·.bounds), Inherits r target t :=
    fun t ht => hown t (List.mem_append_left _ ht)
  have hpieces := (alike htarget hagree).pieces ⟨target, _, suffix⟩ ⟨target, _, suffix⟩ rfl rfl rfl
    (map_mapRefs_id _).symm (renderName_eq hagree _ _ .target) hbounds ⟨fs, _⟩ hforwarded
    hoverridden
  rwa [Members.mapRefs_id] at hpieces

end

end Footprint

/-! ## The outcome -/

namespace Generator

variable {g g' : Generator} {n : BinaryName} {d : Declaration}

/-- Implementing `n` is the same with either generator: the type is accepted or refused alike, and
if it is declared, its variables are bound alike, the same members are resolved and the same text is
written, or the same fault arises; and either run leaves the same session behind. -/
structure SameFor (g g' : Generator) (n : BinaryName) : Prop where
  lookup : g'.registry.lookup n = g.registry.lookup n
  target : g'.target (.named n) = g.target (.named n)
  substitution : ∀ d, g.registry.lookup n = some d → g'.substitution d = g.substitution d
  members : ∀ d, g.registry.lookup n = some d → g'.members d = g.members d
  text : ∀ d, g.registry.lookup n = some d → g'.text d = g.text d
  implement : ∀ root s, g'.implement (.named n) root s = g.implement (.named n) root s

/-- Only a declared type is accepted, and it is accepted as it is declared. -/
theorem lookup_of_target (h : g.target (.named n) = .ok d) : g.registry.lookup n = some d := by
  rw [Generator.target, check, checkName] at h
  -- an empty name and that of a primitive type are refused before anything is looked up
  split at h
  · cases h
  split at h
  · cases h
  cases hn : g.registry.lookup n with
  | none =>
    rw [hn] at h
    cases h
  | some e =>
    rw [hn] at h
    simp only at h
    split_ifs at h
    · cases h
    · cases h
    · cases h
    · cases h
      rfl

section

variable {r' : Registry} (hagree : g.registry.AgreesOn (Footprint g.registry n) r')

include hagree

theorem target_eq :
    Generator.target ⟨r', g.settings⟩ (.named n) = g.target (.named n) := by
  rw [Generator.target, Generator.target, check, check, checkName, checkName, hagree n .target]

theorem substitution_eq (hd : g.registry.lookup n = some d) :
    Generator.substitution ⟨r', g.settings⟩ d = g.substitution d := by
  obtain rfl := Registry.name_of_lookup hd
  exact Footprint.substitution_eq hd hagree

theorem members_eq (hd : g.registry.lookup n = some d) :
    Generator.members ⟨r', g.settings⟩ d = g.members d := by
  rw [members, members, substitution_eq hagree hd]
  obtain rfl := Registry.name_of_lookup hd
  exact Footprint.resolve_eq hd hagree _

theorem pieces_eq (hd : g.registry.lookup n = some d) {ms : Members} (hms : g.members d = .ok ms) :
    (Generator.stub ⟨r', g.settings⟩ d).pieces ms = (g.stub d).pieces ms := by
  obtain rfl := Registry.name_of_lookup hd
  exact Footprint.pieces_eq hd hagree _ hms

theorem text_eq (hd : g.registry.lookup n = some d) :
    Generator.text ⟨r', g.settings⟩ d = g.text d := by
  rw [Generator.text, Generator.text, members_eq hagree hd]
  cases hms : g.members d with
  | error e => exact Eq.refl (Except.error e)
  | ok ms =>
    have hpieces := pieces_eq hagree hd hms
    show (Generator.stub ⟨r', g.settings⟩ d).source ms = (g.stub d).source ms
    rw [Stub.source, Stub.source, hpieces]

/-- A unit is written in the same way from both registries: with the same warning, to the same path,
and with the same text. -/
theorem writeStub_eq (hd : g.registry.lookup n = some d) (root : FilePath) (s : Session) :
    Generator.writeStub ⟨r', g.settings⟩ d root s = g.writeStub d root s := by
  have hwarn : Generator.warnMalformed ⟨r', g.settings⟩ d s = g.warnMalformed d s := by
    obtain rfl := Registry.name_of_lookup hd
    rw [warnMalformed, warnMalformed, Footprint.malformed_eq hd hagree]
  -- where a unit stands and how it is written is a matter of the settings
  have hpath : Generator.sourcePath ⟨r', g.settings⟩ d root = g.sourcePath d root := rfl
  have hunit : ∀ path pieces s, Generator.writeUnit ⟨r', g.settings⟩ path pieces s =
      g.writeUnit path pieces s := fun _ _ _ => rfl
  have hmembers := members_eq hagree hd
  cases hms : g.members d with
  | error e =>
    rw [hms] at hmembers
    rw [writeStub, writeStub, hmembers, hms, hwarn]
  | ok ms =>
    rw [hms] at hmembers
    rw [writeStub_of_members _ hmembers, writeStub_of_members _ hms, pieces_eq hagree hd hms, hwarn,
      hpath, hunit]

theorem implement_eq (root : FilePath) (s : Session) :
    Generator.implement ⟨r', g.settings⟩ (.named n) root s = g.implement (.named n) root s := by
  have htarget := target_eq hagree
  cases hd : g.target (.named n) with
  | error e =>
    rw [hd] at htarget
    rw [implement, implement, htarget, hd]
  | ok d =>
    rw [hd] at htarget
    rw [implement_of_target _ htarget, implement_of_target _ hd,
      writeStub_eq hagree (lookup_of_target hd)]

theorem sameFor_of_agreesOn : g.SameFor ⟨r', g.settings⟩ n where
  lookup := hagree n .target
  target := target_eq hagree
  substitution _ := substitution_eq hagree
  members _ := members_eq hagree
  text _ := text_eq hagree
  implement := implement_eq hagree

end

/-- The implementation of a name depends on its footprint alone: another registry that declares the
same under these names gives the same outcome, with the same settings. In particular, declarations
under other names may be added, removed, replaced and moved, any number of times. The hierarchy may
have cycles, and supertypes need not be declared. -/
theorem sameFor_of_footprint (g : Generator) (n : BinaryName) (r' : Registry) :
    (g.registry.AgreesOn (Footprint g.registry n) r' → g.SameFor ⟨r', g.settings⟩ n) ∧
      (ReflTransGen (Registry.Edit (Footprint g.registry n)) g.registry r' →
        g.SameFor ⟨r', g.settings⟩ n) :=
  ⟨sameFor_of_agreesOn, fun h => sameFor_of_agreesOn (Registry.agreesOn_of_edits h)⟩

end Generator

/-! ## A type elsewhere -/

namespace Mutual

/-- The names in the two declarations. -/
def mentioned : List BinaryName :=
  [⟨"Node"⟩, ⟨"Edge"⟩, ⟨"java.lang.Integer"⟩, ⟨"java.lang.String"⟩]

/-- `Number`, which neither of the two types mentions. -/
def number : Declaration := { name := ⟨"java.lang.Number"⟩ }

theorem mem_mentioned_of_footprint {m : BinaryName} (h : Footprint registry ⟨"Node"⟩ m) :
    m ∈ mentioned := by
  induction h with
  | target => decide
  | @mention target d t m htarget hd ht hm =>
    have hnames : ∀ d ∈ registry.declarations, ∀ t ∈ d.references, ∀ m ∈ t.names,
        m ∈ mentioned := by
      decide
    obtain rfl : node = target := Option.some.inj htarget
    exact hnames d (Hierarchy.mem_declarations_of_reachable rfl hd) t ht m hm
  | @enclosing m e _ he ih =>
    -- none of the names is that of a member type
    have htopLevel : ∀ m ∈ mentioned, m.enclosing? = none := by decide
    rw [htopLevel m ih] at he
    cases he

theorem sameFor_footprint_of_node :
    let g : Generator := ⟨registry, {}⟩
    (registry.AgreesOn (Footprint registry ⟨"Node"⟩) ⟨[edge, node]⟩ ∧
      g.SameFor ⟨⟨[edge, node]⟩, {}⟩ ⟨"Node"⟩) ∧
    ReflTransGen (Registry.Edit (Footprint registry ⟨"Node"⟩)) registry ⟨[number, node, edge]⟩ ∧
      g.SameFor ⟨⟨[number, node, edge]⟩, {}⟩ ⟨"Node"⟩ := by
  intro g
  -- the registries differ in `Number` alone, and nothing in the footprint mentions it
  have hagree : registry.AgreesOn (Footprint registry ⟨"Node"⟩) ⟨[edge, node]⟩ := by
    have hlookup : ∀ m ∈ mentioned, Registry.lookup ⟨[edge, node]⟩ m = registry.lookup m := by
      decide
    exact fun m hm => hlookup m (mem_mentioned_of_footprint hm)
  have hnumber : ¬ Footprint registry ⟨"Node"⟩ number.name := fun h =>
    absurd (mem_mentioned_of_footprint h) (by decide)
  have hput : Registry.Edit (Footprint registry ⟨"Node"⟩) registry ⟨[node, edge, number]⟩ :=
    Registry.edit_put hnumber registry
  have hfirst : Registry.Edit (Footprint registry ⟨"Node"⟩) ⟨[node, edge] ++ number :: []⟩
      ⟨[] ++ number :: [node, edge]⟩ := .move hnumber rfl
  have hedits := ReflTransGen.tail (.single hput) hfirst
  exact ⟨⟨hagree, (Generator.sameFor_of_footprint g ⟨"Node"⟩ _).1 hagree⟩, hedits,
    (Generator.sameFor_of_footprint g ⟨"Node"⟩ _).2 hedits⟩

end Mutual

end StubGen
