import StubGen.Proofs.Render.Spelling

/-!
# Reading a text back

A reader goes through the text of a reference character by character. It keeps a stack of the
generic types and wildcards that have not come to their end, and the reference that was read last,
which the next character may continue. Every reference takes the reader over its own text in the
same way, whatever stands before and after, so no text can be read in two ways.

Main results:

* `Reader.run_name`, `Reader.run_arguments`, `Reader.run_bounds` — names and lists of references;
* `TypeRef.Written.readable` — a reference that can be written is read over;
* `Scope.renderResolved_unambiguous` — the spelling can be read off the text.
-/

namespace StubGen

/-- A generic type or a wildcard that is not read to its end, with what is read of it so far. -/
inductive Frame
  | arguments (raw : String) (done : List Spelling)
  | bounds (kind : BoundKind) (done : List Spelling)

/-- What has been read last. -/
inductive Mode
  /-- A reference comes next, after the rest of a separator. -/
  | before (separator : List Char)
  /-- A reference, which may go on. -/
  | after (s : Spelling)
  /-- A reference and a `[`. -/
  | bracket (s : Spelling)
  /-- The `? ` of a wildcard with bounds. -/
  | keyword

/-- A place in a text. -/
structure Reader where
  frames : List Frame
  mode : Mode

namespace Reader

/-- A wildcard ends with its last bound. -/
def close : List Frame → Spelling → List Frame × Spelling
  | .bounds kind done :: frames, s => (frames, .wildcard kind (done ++ [s]))
  | frames, s => (frames, s)

/-- The first character of a reference, or the end of a list that has none. -/
def first? (frames : List Frame) (c : Char) : Option Reader :=
  if isNameChar c then some ⟨frames, .after (.name (String.singleton c))⟩
  else
    match c, frames with
    | '?', frames => some ⟨frames, .after .anything⟩
    | '>', .arguments raw [] :: frames => some ⟨frames, .after (.parameterized raw [])⟩
    | _, _ => none

/-- A character after a reference: it goes on, or something comes after it. -/
def next? (frames : List Frame) (s : Spelling) (c : Char) : Option Reader :=
  if isNameChar c then
    match s with
    | .name text => some ⟨frames, .after (.name (text.push c))⟩
    | _ => none
  else
    match c with
    | '[' => some ⟨frames, .bracket s⟩
    | '<' =>
      match s with
      | .name raw => some ⟨.arguments raw [] :: frames, .before []⟩
      | _ => none
    | ' ' =>
      match frames, s with
      | .bounds kind done :: frames, s =>
        some ⟨.bounds kind (done ++ [s]) :: frames, .before ['&', ' ']⟩
      | frames, .anything => some ⟨frames, .keyword⟩
      | _, _ => none
    | ',' =>
      match close frames s with
      | (.arguments raw done :: frames, s) =>
        some ⟨.arguments raw (done ++ [s]) :: frames, .before [' ']⟩
      | _ => none
    | '>' =>
      match close frames s with
      | (.arguments raw done :: frames, s) =>
        some ⟨frames, .after (.parameterized raw (done ++ [s]))⟩
      | _ => none
    | _ => none

/-- One character. -/
def step (r : Reader) (c : Char) : Option Reader :=
  match r.mode with
  | .before (d :: ds) => if c = d then some ⟨r.frames, .before ds⟩ else none
  | .before [] => first? r.frames c
  | .after s => next? r.frames s c
  | .bracket s => if c = ']' then some ⟨r.frames, .after (.array s)⟩ else none
  | .keyword =>
    match c with
    | 'e' => some ⟨.bounds .upper [] :: r.frames, .before ['x', 't', 'e', 'n', 'd', 's', ' ']⟩
    | 's' => some ⟨.bounds .lower [] :: r.frames, .before ['u', 'p', 'e', 'r', ' ']⟩
    | _ => none

/-- Reads a text. -/
def run (r : Reader) (text : List Char) : Option Reader := text.foldlM step r

/-- The reference that has been read, at the end of a text. -/
def result? (r : Reader) : Option Spelling :=
  match r.mode with
  | .after s =>
    match close r.frames s with
    | ([], s) => some s
    | _ => none
  | _ => none

end Reader

/-- The spelling that a text shows. -/
def Spelling.parse (text : String) : Option Spelling :=
  (Reader.run ⟨[], .before []⟩ text.toList).bind Reader.result?

namespace Reader

variable {r r' : Reader} {frames frames' : List Frame} {s s' : Spelling} {cs ds : List Char}

/-! ## One piece of a text after the other -/

theorem run_append (h : r.run cs = some r') : r.run (cs ++ ds) = r'.run ds := by
  rw [run, List.foldlM_append]
  show (r.run cs).bind _ = _
  rw [h]
  rfl

theorem run_cons {c : Char} (h : r.step c = some r') : r.run (c :: cs) = r'.run cs := by
  rw [run, List.foldlM_cons, h]
  rfl

theorem run_nil (r : Reader) : r.run [] = some r := rfl

/-- Nothing but the rest of a separator may stand before a reference. -/
theorem run_separator (frames : List Frame) (ds : List Char) :
    run ⟨frames, .before ds⟩ ds = some ⟨frames, .before []⟩ := by
  induction ds with
  | nil => rfl
  | cons d ds ih =>
    have hstep : step ⟨frames, .before (d :: ds)⟩ d = some ⟨frames, .before ds⟩ := if_pos rfl
    rw [run_cons hstep, ih]

/-! ## Names -/

theorem run_name_rest (frames : List Frame) (text : String) (hcs : ∀ c ∈ cs, isNameChar c = true) :
    run ⟨frames, .after (.name text)⟩ cs =
      some ⟨frames, .after (.name (text ++ String.ofList cs))⟩ := by
  induction cs generalizing text with
  | nil =>
    rw [run_nil]
    simp
  | cons c cs ih =>
    have hstep : step ⟨frames, .after (.name text)⟩ c =
        some ⟨frames, .after (.name (text.push c))⟩ := if_pos (hcs c List.mem_cons_self)
    have htext : text.push c ++ String.ofList cs = text ++ String.ofList (c :: cs) := by
      rw [← String.toList_inj]
      simp
    rw [run_cons hstep, ih _ fun x hx => hcs x (List.mem_cons_of_mem _ hx), htext]

/-- A name takes the reader over, up to its last character. -/
theorem run_name (frames : List Frame) {text : String} (h : IsName text) :
    run ⟨frames, .before []⟩ text.toList = some ⟨frames, .after (.name text)⟩ := by
  obtain ⟨hne, hchars⟩ := h
  cases hcs : text.toList with
  | nil => exact absurd (String.toList_inj.1 (hcs.trans String.toList_empty.symm)) hne
  | cons c cs =>
    rw [hcs, List.all_eq_true] at hchars
    have hstep : step ⟨frames, .before []⟩ c =
        some ⟨frames, .after (.name (String.singleton c))⟩ :=
      if_pos (hchars c List.mem_cons_self)
    have htext : String.singleton c ++ String.ofList cs = text := by
      rw [← String.toList_inj, hcs]
      simp
    rw [run_cons hstep, run_name_rest _ _ fun x hx => hchars x (List.mem_cons_of_mem _ hx), htext]

/-! ## References -/

/-- A reference takes the reader over. -/
def Reads (s : Spelling) : Prop :=
  ∀ frames, run ⟨frames, .before []⟩ s.text.toList = some ⟨frames, .after s⟩

/-- Frames in which no wildcard waits for its end. -/
def Settled (frames : List Frame) : Prop := ∀ s, close frames s = (frames, s)

/-- An argument takes the reader over, but a wildcard may still wait for its end. -/
def ReadsArgument (s : Spelling) : Prop :=
  ∀ frames, Settled frames → ∃ frames' s',
    run ⟨frames, .before []⟩ s.text.toList = some ⟨frames', .after s'⟩ ∧
      close frames' s' = (frames, s)

theorem Reads.readsArgument (h : Reads s) : ReadsArgument s :=
  fun frames hframes => ⟨frames, s, h frames, hframes s⟩

theorem settled_arguments (raw : String) (done : List Spelling) (frames : List Frame) :
    Settled (.arguments raw done :: frames) := fun _ => rfl

theorem reads_name {text : String} (h : IsName text) : Reads (.name text) :=
  fun frames => run_name frames h

theorem Reads.array (h : Reads s) : Reads (.array s) := by
  intro frames
  rw [Spelling.text, String.toList_append, run_append (h frames)]
  rfl

theorem readsArgument_anything : ReadsArgument .anything :=
  fun frames hframes => ⟨frames, .anything, rfl, hframes _⟩

/-! ## Arguments -/

section

variable {raw : String} {done : List Spelling}
  (hclose : close frames' s' = (.arguments raw done :: frames, s))

include hclose

/-- An argument is over at the separator, and a wildcard with it. -/
theorem run_comma : run ⟨frames', .after s'⟩ ", ".toList =
    some ⟨.arguments raw (done ++ [s]) :: frames, .before []⟩ := by
  have hstep : step ⟨frames', .after s'⟩ ',' =
      some ⟨.arguments raw (done ++ [s]) :: frames, .before [' ']⟩ := by
    -- what the character does depends on what is open once the wildcard has come to its end
    show (match close frames' s' with
      | (.arguments raw done :: frames, s) => _
      | _ => _) = _
    rw [hclose]
  exact (run_cons hstep).trans (run_separator _ _)

/-- So is the last argument at the end of the list. -/
theorem run_end : run ⟨frames', .after s'⟩ ">".toList =
    some ⟨frames, .after (.parameterized raw (done ++ [s]))⟩ := by
  have hstep : step ⟨frames', .after s'⟩ '>' =
      some ⟨frames, .after (.parameterized raw (done ++ [s]))⟩ := by
    show (match close frames' s' with
      | (.arguments raw done :: frames, s) => _
      | _ => _) = _
    rw [hclose]
  exact run_cons hstep

end

/-- The arguments of a generic type, up to its end. -/
theorem run_arguments {args : List Spelling} (hargs : ∀ a ∈ args, ReadsArgument a) (hne : args ≠ [])
    (raw : String) (done : List Spelling) (frames : List Frame) :
    run ⟨.arguments raw done :: frames, .before []⟩
        ((", ".intercalate (Spelling.textAll args)).toList ++ ">".toList) =
      some ⟨frames, .after (.parameterized raw (done ++ args))⟩ := by
  -- every argument read moves into the frame, so the frame is general in the induction
  induction args generalizing done with
  | nil => exact absurd rfl hne
  | cons a args ih =>
    obtain ⟨frames', s', hrun, hclose⟩ :=
      hargs a List.mem_cons_self _ (settled_arguments raw done frames)
    cases args with
    | nil =>
      -- the last argument is closed by the end of the list
      rw [Spelling.textAll, Spelling.textAll, String.intercalate_singleton, run_append hrun,
        run_end hclose]
    | cons b args =>
      -- any other one by the comma, behind which the next one is read in the same frame
      have hrest := ih (fun x hx => hargs x (List.mem_cons_of_mem _ hx)) (List.cons_ne_nil _ _)
        (done ++ [a])
      rw [Spelling.textAll, Spelling.textAll, String.intercalate_cons_cons, ← Spelling.textAll,
        String.toList_append, String.toList_append, List.append_assoc, List.append_assoc,
        run_append hrun, run_append (run_comma hclose), hrest, List.append_assoc,
        List.singleton_append]

theorem reads_parameterized {raw : String} (hraw : IsName raw) {args : List Spelling}
    (hargs : ∀ a ∈ args, ReadsArgument a) : Reads (.parameterized raw args) := by
  intro frames
  have hopen : run ⟨frames, .after (.name raw)⟩ "<".toList =
      some ⟨.arguments raw [] :: frames, .before []⟩ := rfl
  rw [Spelling.text, String.toList_append, String.toList_append, String.toList_append,
    List.append_assoc, List.append_assoc, run_append (run_name frames hraw), run_append hopen]
  by_cases hne : args = []
  · -- there is no last argument that the bracket could end
    subst hne
    rfl
  · exact run_arguments hargs hne raw [] frames

/-! ## Bounds -/

/-- A bound is over at the separator. -/
theorem run_ampersand (kind : BoundKind) (done : List Spelling) (frames : List Frame)
    (s : Spelling) : run ⟨.bounds kind done :: frames, .after s⟩ " & ".toList =
      some ⟨.bounds kind (done ++ [s]) :: frames, .before []⟩ := rfl

/-- The bounds of a wildcard. The last one is read, but nothing tells that it is the last. -/
theorem run_bounds {bounds : List Spelling} (hbounds : ∀ b ∈ bounds, Reads b) (hne : bounds ≠ [])
    (kind : BoundKind) (done : List Spelling) (frames : List Frame) :
    ∃ done' s, run ⟨.bounds kind done :: frames, .before []⟩
        (" & ".intercalate (Spelling.textAll bounds)).toList =
          some ⟨.bounds kind done' :: frames, .after s⟩ ∧
      done' ++ [s] = done ++ bounds := by
  induction bounds generalizing done with
  | nil => exact absurd rfl hne
  | cons b bounds ih =>
    have hb := hbounds b List.mem_cons_self (.bounds kind done :: frames)
    cases bounds with
    | nil =>
      refine ⟨done, b, ?_, rfl⟩
      rw [Spelling.textAll, Spelling.textAll, String.intercalate_singleton, hb]
    | cons b' bounds =>
      obtain ⟨done', s, hrun, hdone⟩ := ih (fun x hx => hbounds x (List.mem_cons_of_mem _ hx))
        (List.cons_ne_nil _ _) (done ++ [b])
      refine ⟨done', s, ?_, ?_⟩
      · rw [Spelling.textAll, Spelling.textAll, String.intercalate_cons_cons, ← Spelling.textAll,
          String.toList_append, String.toList_append, List.append_assoc, run_append hb,
          run_append (run_ampersand kind done frames b), hrun]
      · rw [hdone, List.append_assoc, List.singleton_append]

/-- The keyword before a wildcard's bounds. -/
theorem run_keyword (hframes : Settled frames) (kind : BoundKind) :
    run ⟨frames, .before []⟩ ("? " ++ kind.word ++ " ").toList =
      some ⟨.bounds kind [] :: frames, .before []⟩ := by
  have hopen : run ⟨frames, .before []⟩ "? ".toList = some ⟨frames, .keyword⟩ := by
    cases frames with
    | nil => rfl
    | cons f frames =>
      cases f with
      | arguments raw done => rfl
      | bounds kind done =>
        -- a wildcard is no bound of another one
        have hdepth := congrArg (fun x => x.1.length) (hframes .anything)
        simp [close] at hdepth
  rw [String.toList_append, String.toList_append, List.append_assoc, run_append hopen]
  cases kind with
  | upper => rfl
  | lower => rfl

theorem readsArgument_wildcard {bounds : List Spelling} (hbounds : ∀ b ∈ bounds, Reads b)
    (hne : bounds ≠ []) (kind : BoundKind) : ReadsArgument (.wildcard kind bounds) := by
  intro frames hframes
  obtain ⟨done, s, hrun, hdone⟩ := run_bounds hbounds hne kind [] frames
  refine ⟨.bounds kind done :: frames, s, ?_, ?_⟩
  · rw [Spelling.text, String.toList_append, run_append (run_keyword hframes kind), hrun]
  · rw [close, hdone, List.nil_append]

/-! ## Whole texts -/

/-- What a reference does to the reader depends on where it stands. -/
def Readable : TypeRef.Position → Spelling → Prop
  | .whole => Reads
  | .argument => ReadsArgument

theorem Reads.readable (h : Reads s) (p : TypeRef.Position) : Readable p s := by
  cases p with
  | whole => exact h
  | argument => exact h.readsArgument

theorem Readable.readsArgument {p : TypeRef.Position} (h : Readable p s) : ReadsArgument s := by
  cases p with
  | whole => exact Reads.readsArgument h
  | argument => exact h

theorem ReadsArgument.parse (h : ReadsArgument s) : Spelling.parse s.text = some s := by
  obtain ⟨frames', s', hrun, hclose⟩ := h [] fun _ => rfl
  rw [Spelling.parse, hrun, Option.bind_some, result?]
  show (match close frames' s' with
    | ([], s) => some s
    | _ => none) = some s
  rw [hclose]

end Reader

/-- What can be written at a position is read back there. Only a whole argument may be a wildcard,
which is why positions are part of the induction. -/
theorem TypeRef.Written.readable {t : TypeRef} {p : TypeRef.Position} (h : t.Written p) :
    Reader.Readable p t.spelling := by
  induction h with
  | named hn => exact (Reader.reads_name hn.canonical).readable _
  | array _ ih => exact (Reader.Reads.array ih).readable _
  | var hv => exact (Reader.reads_name hv).readable _
  | @parameterized _ raw args hraw _ ih =>
    rw [spelling, spellingAll_eq_map]
    refine (Reader.reads_parameterized hraw.canonical fun s hs => ?_).readable _
    obtain ⟨a, ha, rfl⟩ := List.mem_map.1 hs
    exact ih a ha
  | @wildcard kind bounds _ ih =>
    rw [spelling]
    -- without bounds that are written, the wildcard is a question mark
    split
    · exact Reader.readsArgument_anything
    · rename_i hbounded
      rw [spellingAll_eq_map]
      refine Reader.readsArgument_wildcard (fun s hs => ?_) ?_ kind
      · obtain ⟨b, hb, rfl⟩ := List.mem_map.1 hs
        exact ih b hb
      · rintro hnil
        rw [List.map_eq_nil_iff] at hnil
        exact hbounded (by simp [hnil, Scope.isUnbounded])

namespace Scope

/-- The spelling of a reference can be read off its text, and two references have one text exactly
if they have one spelling: a text tells everything but who owns a variable, whether a name is that
of a variable, where the packages of a type end, and whether a wildcard without bounds had the upper
bound that every type has. -/
theorem renderResolved_unambiguous (scope : Scope) :
    (∀ {p : TypeRef.Position} {t : TypeRef} {text : String}, t.Written p →
      scope.renderResolved t = .ok text → Spelling.parse text = some t.spelling) ∧
    (∀ {p q : TypeRef.Position} {t u : TypeRef} {a b : String}, t.Written p → u.Written q →
      scope.renderResolved t = .ok a → scope.renderResolved u = .ok b →
      (a = b ↔ t.spelling = u.spelling)) := by
  have hparse : ∀ {p : TypeRef.Position} {t : TypeRef} {text : String}, t.Written p →
      scope.renderResolved t = .ok text → Spelling.parse text = some t.spelling := by
    intro p t text ht htext
    rw [text_of_renderResolved ht htext]
    exact ht.readable.readsArgument.parse
  refine ⟨hparse, fun ht hu ha hb => ⟨fun hab => ?_, fun hspelling => ?_⟩⟩
  · have htext := hparse ht ha
    rw [hab, hparse hu hb] at htext
    exact (Option.some.inj htext).symm
  · rw [text_of_renderResolved ht ha, text_of_renderResolved hu hb, hspelling]

end Scope

/-! ## Two references of one text -/

namespace Nesting

/-- `Map<? extends Number & Comparable<v>, inner[][], unbounded>`. -/
def table (v : TypeRef) (inner : String) (unbounded : TypeRef) : TypeRef :=
  .parameterized ⟨"Map"⟩
    [.wildcard .upper [.named ⟨"Number"⟩, .parameterized ⟨"Comparable"⟩ [v]],
      .array (.array (.named ⟨inner⟩)), unbounded]

/-- With a variable, a member type and a bound that every type has. -/
def bounded : TypeRef :=
  table (.var ⟨"V", .ofType ⟨"Box"⟩⟩) "p.Outer$Inner" (.wildcard .upper [.object])

/-- With a type of the variable's name, a type of a package and no bound. -/
def unbounded : TypeRef := table (.named ⟨"V"⟩) "p.Outer.Inner" (.wildcard .lower [])

def scope : Scope := ⟨⟨[]⟩, .empty⟩

def text : String := "Map<? extends Number & Comparable<V>, p.Outer.Inner[][], ?>"

theorem written_table {v w : TypeRef} {inner : String} (hv : v.Written .argument)
    (hinner : BinaryName.IsTypeName ⟨inner⟩) (hw : w.Written .argument) :
    (table v inner w).Written .whole := by
  have hmap : BinaryName.IsTypeName ⟨"Map"⟩ := ⟨by decide, by decide⟩
  have hnumber : BinaryName.IsTypeName ⟨"Number"⟩ := ⟨by decide, by decide⟩
  have hcomparable : BinaryName.IsTypeName ⟨"Comparable"⟩ := ⟨by decide, by decide⟩
  refine .parameterized hmap ?_
  simp only [List.mem_cons, List.not_mem_nil, or_false, forall_eq_or_imp, forall_eq]
  refine ⟨.wildcard ?_, .array (.array (.named hinner)), hw⟩
  simp only [List.mem_cons, List.not_mem_nil, or_false, forall_eq_or_imp, forall_eq]
  exact ⟨.named hnumber, .parameterized hcomparable (by simpa using hv)⟩

/-- Both are read as what they have in common. -/
theorem renderResolved_unambiguous_of_nested :
    bounded.Written .whole ∧ unbounded.Written .whole ∧
    scope.renderResolved bounded = .ok text ∧ scope.renderResolved unbounded = .ok text ∧
    Spelling.parse text = some bounded.spelling ∧ bounded.spelling = unbounded.spelling := by
  have hbounded : bounded.Written .whole := by
    refine written_table (.var (by decide)) ⟨by decide, by decide⟩ (.wildcard fun b hb => ?_)
    obtain rfl := List.mem_singleton.1 hb
    exact .named ⟨by decide, by decide⟩
  have hunbounded : unbounded.Written .whole :=
    written_table (.named ⟨by decide, by decide⟩) ⟨by decide, by decide⟩ (.wildcard (by simp))
  have hname : ∀ n, scope.renderName n = .ok n.canonical :=
    fun n => Scope.renderName_of_undeclared rfl
  have htext : scope.renderResolved bounded = .ok text := by
    rw [Scope.renderResolved_of_names fun n _ => hname n]
    decide
  have htext' : scope.renderResolved unbounded = .ok text := by
    rw [Scope.renderResolved_of_names fun n _ => hname n]
    decide
  obtain ⟨hparse, hiff⟩ := Scope.renderResolved_unambiguous scope
  exact ⟨hbounded, hunbounded, htext, htext', hparse hbounded htext,
    (hiff hbounded hunbounded htext htext').1 rfl⟩

end Nesting

end StubGen
