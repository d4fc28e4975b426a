import StubGen.Proofs.Tar.Reading

/-!
# Calls of an archiver

An archiver may be called in any order. It refuses what makes no sense where it comes: to open an
entry while one is open, and to write or close one while none is. A refused call changes nothing. So
a ledger of the other calls tells what an archive holds: the entries that were closed, each with all
that was written to it, whatever calls have been refused in between.

Main results:

* `Follows.call`, `Follows.calls` — the ledger tells which calls are refused, and keeps doing so;
* `Stores.read` — entries one behind the other are read back one after the other;
* `Archiver.calls_outcome` — what a finished archive holds after any calls.
-/

namespace StubGen.Tar

/-! ## Calls -/

/-- A call of an archiver, apart from the one that finishes it. -/
inductive Call
  | openEntry (path : String)
  | write (bytes : List UInt8)
  | closeEntry
deriving DecidableEq

/-- An entry is opened under a plain name only. -/
def Call.IsPlain : Call → Prop
  | openEntry path => IsPlainName path
  | write _ | closeEntry => True

namespace Archiver

/-- The archiver after a step, or as it was if the step has failed. -/
def settle (a : Archiver) : Except ArchiveError Archiver → Except ArchiveError Unit × Archiver
  | .ok b => (.ok (), b)
  | .error e => (.error e, a)

/-- What a call gives, with the archiver after it. -/
def call (a : Archiver) : Call → Except ArchiveError Unit × Archiver
  | .openEntry path => a.settle (a.openEntry path)
  | .write bytes => a.settle (a.write bytes)
  | .closeEntry => a.closeEntry

/-- The archiver after calls, whether they have failed or not. -/
def calls (a : Archiver) (cs : List Call) : Archiver := cs.foldl (fun a c => (a.call c).2) a

end Archiver

/-! ## The ledger -/

/-- An entry as it was asked for: its path, and what was written to it, piece by piece. -/
structure Asked where
  path : String
  pieces : List (List UInt8)
deriving DecidableEq

namespace Asked

def data (e : Asked) : List UInt8 := e.pieces.flatten

/-- The entry while it is open. -/
def opened (e : Asked) : OpenEntry := ⟨e.path, e.data⟩

/-- What a reader finds of an entry. -/
def content (e : Asked) : List UInt8 × List UInt8 := (Text.utf8 e.path, e.data)

/-- Size fields can hold the lengths of the name and of the data. -/
structure Fits (e : Asked) : Prop where
  name : (Text.utf8 e.path).length + 1 < sizeLimit
  data : e.data.length < sizeLimit

end Asked

/-- The calls that made sense: the entry that is open, and those that were closed. -/
structure Ledger where
  current : Option Asked
  closed : List Asked
deriving DecidableEq

namespace Ledger

def empty : Ledger := ⟨none, []⟩

/-- An entry is opened while none is open, and written or closed while one is. -/
def InOrder (l : Ledger) : Call → Prop
  | .openEntry _ => l.current = none
  | .write _ | .closeEntry => l.current ≠ none

/-- The ledger after a call; what is out of order is not entered. -/
def enter (l : Ledger) (c : Call) : Ledger :=
  match c, l.current with
  | .openEntry path, none => { l with current := some ⟨path, []⟩ }
  | .write bytes, some e => { l with current := some { e with pieces := e.pieces ++ [bytes] } }
  | .closeEntry, some e => ⟨none, l.closed ++ [e]⟩
  | _, _ => l

def enterAll (l : Ledger) (cs : List Call) : Ledger := cs.foldl enter l

end Ledger

/-! ## What is stored -/

variable {a : Archiver} {l : Ledger} {c : Call} {cs : List Call} {e : Asked} {es : List Asked}
  {bytes out : List UInt8}

/-- Entries stand one behind the other. -/
inductive Stores : List Asked → List UInt8 → Prop
  | nil : Stores [] []
  | concat {es : List Asked} {e : Asked} {out bytes : List UInt8} (h : Stores es out)
      (hentry : entry ⟨e.path⟩ e.data = .ok bytes) : Stores (es ++ [e]) (out ++ bytes)

/-- Entries of plain names are read back one after the other, and then what follows them. The
archive grows at its end, so the induction takes off the last entry. -/
theorem Stores.read (h : Stores es out) (hplain : ∀ e ∈ es, IsPlainName e.path)
    (hfits : ∀ e ∈ es, e.Fits) (rest : List UInt8) :
    read none (out ++ rest) = (read none rest).map (es.map Asked.content ++ ·) := by
  -- the last entry is part of what follows the others
  induction h generalizing rest with
  | nil => simp
  | @concat es e out bytes h hentry ih =>
    rw [List.forall_mem_append, List.forall_mem_singleton] at hplain hfits
    obtain ⟨_, hbytes, hread⟩ := entry_of_isPlainName hplain.2 e.data
    obtain rfl := Except.ok.inj (hentry.symm.trans hbytes)
    rw [List.append_assoc, ih hplain.1 hfits.1, hread hfits.2.name hfits.2.data, Option.map_map]
    congr 1
    funext es'
    rw [List.map_append, List.append_assoc]
    rfl

/-- An archiver has done what a ledger tells. -/
structure Follows (l : Ledger) (a : Archiver) : Prop where
  current : a.current = l.current.map Asked.opened
  plain : ∀ e ∈ l.current, IsPlainName e.path
  stores : Stores l.closed a.output
  closedPlain : ∀ e ∈ l.closed, IsPlainName e.path

theorem follows_empty : Follows .empty .empty :=
  ⟨rfl, fun _ h => (nomatch h), .nil, fun _ h => nomatch h⟩

namespace Follows

/-- A call fails if it is out of order, and then changes nothing. Otherwise it does what is entered
in the ledger. Closing is the only call that writes to the archive, and what keeps it from failing
is that every name in the ledger is plain. -/
theorem call (h : Follows l a) (hc : c.IsPlain) :
    ((a.call c).1 = .ok () ↔ l.InOrder c) ∧ (¬l.InOrder c → (a.call c).2 = a) ∧
      Follows (l.enter c) (a.call c).2 := by
  obtain ⟨current, output⟩ := a
  obtain ⟨asked?, closed⟩ := l
  obtain rfl : current = asked?.map Asked.opened := h.current
  -- whether an entry is open decides which calls are in order
  cases asked? with
  | none =>
    cases c with
    | openEntry path =>
      have hplain : ∀ e ∈ some (Asked.mk path []), IsPlainName e.path := by
        rintro e ⟨⟩
        exact hc
      exact ⟨⟨fun _ => rfl, fun _ => rfl⟩, fun hnot => absurd rfl hnot,
        ⟨rfl, hplain, h.stores, h.closedPlain⟩⟩
    -- there is no entry to write to or to close
    | write bytes => exact ⟨⟨fun h => (nomatch h), fun h => absurd rfl h⟩, fun _ => rfl, h⟩
    | closeEntry => exact ⟨⟨fun h => (nomatch h), fun h => absurd rfl h⟩, fun _ => rfl, h⟩
  | some e =>
    have hopen : some e ≠ none := Option.some_ne_none e
    have hplain : IsPlainName e.path := h.plain e rfl
    cases c with
    -- no second entry is opened while one is open
    | openEntry path => exact ⟨⟨fun h => (nomatch h), fun h => (nomatch h)⟩, fun _ => rfl, h⟩
    | write bytes =>
      -- the new piece comes behind those before it
      have hdata : Asked.data ⟨e.path, e.pieces ++ [bytes]⟩ = e.data ++ bytes := by
        rw [Asked.data, List.flatten_append, List.flatten_singleton]
        rfl
      refine ⟨⟨fun _ => hopen, fun _ => rfl⟩, fun hnot => absurd hopen hnot, ?_, ?_, h.stores,
        h.closedPlain⟩
      · exact congrArg (fun data => some (OpenEntry.mk e.path data)) hdata.symm
      · rintro _ ⟨⟩
        exact hplain
    | closeEntry =>
      -- an entry of a plain name can always be written, so closing it does not fail
      obtain ⟨bytes, hbytes, -⟩ := entry_of_isPlainName hplain e.data
      have hclose : Archiver.call ⟨some e.opened, output⟩ .closeEntry =
          (.ok (), ⟨none, output ++ bytes⟩) := by
        simp only [Archiver.call, Archiver.closeEntry, Asked.opened, hbytes]
      rw [Option.map_some, hclose]
      refine ⟨⟨fun _ => hopen, fun _ => rfl⟩, fun hnot => absurd hopen hnot,
        ⟨rfl, fun _ h => (nomatch h), h.stores.concat hbytes, ?_⟩⟩
      -- the entry joins the closed ones
      show ∀ e' ∈ closed ++ [e], IsPlainName e'.path
      rw [List.forall_mem_append, List.forall_mem_singleton]
      exact ⟨h.closedPlain, hplain⟩

theorem calls (h : Follows l a) (hcs : ∀ c ∈ cs, c.IsPlain) :
    Follows (l.enterAll cs) (a.calls cs) := by
  induction cs generalizing l a with
  | nil => exact h
  | cons c cs ih =>
    obtain ⟨-, -, hnext⟩ := h.call (hcs c List.mem_cons_self)
    exact ih hnext fun c' hc' => hcs c' (List.mem_cons_of_mem _ hc')

/-- An archive can be finished while no entry is open, and ends in two blocks of zeros. -/
theorem finish_eq_ok_iff (h : Follows l a) :
    a.finish = .ok bytes ↔ l.current = none ∧ bytes = a.output ++ endBlocks := by
  have hcurrent := h.current
  rw [Archiver.finish]
  cases hl : l.current with
  | none =>
    rw [hl] at hcurrent
    rw [hcurrent]
    simp [Archiver.bytes, eq_comm]
  | some e =>
    rw [hl] at hcurrent
    rw [hcurrent]
    simp

end Follows

/-- What calls in any order do. Each fails exactly if it is out of order, and then changes nothing.
The archive can be finished exactly if no entry is open. Then it holds the entries that were closed,
in order, each with its path and all that was written to it, and ends after them. -/
theorem Archiver.calls_outcome (cs : List Call) (hcs : ∀ c ∈ cs, c.IsPlain) :
    let a := Archiver.empty.calls cs
    let l := Ledger.empty.enterAll cs
    (∀ c : Call, c.IsPlain →
      ((a.call c).1 = .ok () ↔ l.InOrder c) ∧ (¬l.InOrder c → (a.call c).2 = a)) ∧
    ((∃ bytes, a.finish = .ok bytes) ↔ l.current = none) ∧
    ∀ bytes, a.finish = .ok bytes → (∀ e ∈ l.closed, e.Fits) →
      read none bytes = some (l.closed.map Asked.content) ∧
      ∃ body, bytes = body ++ endBlocks ∧ ∀ rest, read none (body ++ rest) =
        (read none rest).map (l.closed.map Asked.content ++ ·) := by
  intro a l
  have h : Follows l a := follows_empty.calls hcs
  refine ⟨fun c hc => ?_, ⟨?_, fun hnone => ⟨_, h.finish_eq_ok_iff.2 ⟨hnone, rfl⟩⟩⟩, ?_⟩
  · obtain ⟨hok, hsame, -⟩ := h.call hc
    exact ⟨hok, hsame⟩
  · rintro ⟨bytes, hfinish⟩
    exact (h.finish_eq_ok_iff.1 hfinish).1
  · intro bytes hfinish hfits
    obtain ⟨-, rfl⟩ := h.finish_eq_ok_iff.1 hfinish
    have hread := h.stores.read h.closedPlain hfits
    refine ⟨?_, a.output, rfl, hread⟩
    rw [hread, ← List.append_nil endBlocks, read_endBlocks, Option.map_some, List.append_nil]

/-! ## Calls in disorder -/

namespace Disorder

theorem isPlainName_replicate {n : Nat} (hn : 3 ≤ n) :
    IsPlainName (String.ofList (List.replicate n 'n')) := by
  have hmem : ∀ c, c ≠ 'n' → c ∉ List.replicate n 'n' :=
    fun c hc h => hc (List.eq_of_mem_replicate h)
  have hne : ∀ s : List Char, s.length ≤ 2 → List.replicate n 'n' ≠ s := by
    rintro s hs rfl
    rw [List.length_replicate] at hs
    omega
  intro q hq
  rw [String.toList_ofList, Text.pieces_of_not_mem (hmem _ (by decide))] at hq
  rw [List.mem_singleton.1 hq]
  exact ⟨hne _ (by decide), hne _ (by decide), hne _ (by decide), hmem _ (by decide)⟩

theorem length_utf8_replicate (n : Nat) :
    (Text.utf8 (String.ofList (List.replicate n 'n'))).length = n := by
  have hsize : 'n'.utf8Size = 1 := by decide
  rw [Text.utf8, String.toList_ofList]
  simp [hsize]

/-- A name of one byte more than its field can hold. -/
@[irreducible]
def longName : String := String.ofList (List.replicate (nameSize + 1) 'n')

theorem isPlainName_longName : IsPlainName longName := by
  unfold longName
  exact isPlainName_replicate (by decide)

theorem fits_longName : Asked.Fits ⟨longName, []⟩ := by
  have hlength : (Text.utf8 (Asked.mk longName []).path).length = nameSize + 1 := by
    simp only
    unfold longName
    exact length_utf8_replicate _
  refine ⟨?_, by decide⟩
  rw [hlength]
  decide

theorem isPlainName_short : IsPlainName "p/q" := by
  have hpieces : Text.pieces '/' "p/q".toList = ["p".toList, "q".toList] := by decide
  intro q hq
  rw [hpieces, List.mem_cons, List.mem_singleton] at hq
  rcases hq with rfl | rfl <;> exact ⟨by decide, by decide, by decide, by decide⟩

/-- Two entries, with calls among them that are refused. -/
def errands : List Call :=
  [.write [1], .openEntry "p/q", .openEntry "p/q", .write [1, 2], .write [], .write [3],
    .closeEntry, .closeEntry, .openEntry longName, .closeEntry]

theorem enterAll_errands :
    Ledger.empty.enterAll errands = ⟨none, [⟨"p/q", [[1, 2], [], [3]]⟩, ⟨longName, []⟩]⟩ := rfl

theorem calls_outcome_of_errands :
    (∀ c ∈ errands, c.IsPlain) ∧
    ∃ bytes, (Archiver.empty.calls errands).finish = .ok bytes ∧
      read none bytes = some [(Text.utf8 "p/q", [1, 2, 3]), (Text.utf8 longName, [])] := by
  have hplain : ∀ c ∈ errands, c.IsPlain := by
    simp only [errands, List.forall_mem_cons, List.not_mem_nil, Call.IsPlain, isPlainName_short,
      isPlainName_longName, false_imp_iff, implies_true, and_true]
  have hfits : ∀ e ∈ (Ledger.empty.enterAll errands).closed, e.Fits := by
    rw [enterAll_errands, List.forall_mem_cons, List.forall_mem_singleton]
    exact ⟨⟨by decide, by decide⟩, fits_longName⟩
  obtain ⟨-, hfinish, hread⟩ := Archiver.calls_outcome errands hplain
  rw [enterAll_errands] at hfinish
  obtain ⟨bytes, hbytes⟩ := hfinish.2 rfl
  have hcontent := (hread bytes hbytes hfits).1
  rw [enterAll_errands] at hcontent
  exact ⟨hplain, bytes, hbytes, hcontent⟩

end Disorder

end StubGen.Tar
