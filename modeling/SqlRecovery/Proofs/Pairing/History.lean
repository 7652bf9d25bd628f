import Mathlib.Data.List.Induction
import SqlRecovery.Proofs.Pairing.Line

/-! Which statements a run over many lines gives, told by the lines alone: a parameters marker
completes the statement that the last marker before it began. -/
namespace SqlRecovery.Pairing
open Text Marker LogLine Logged

/-- Read the lines in order. What each of them gives. -/
def readLines (m : Markers) : List String → Logged Slot (List (Option Statement))
  | [] => pure []
  | line :: lines => do
    let first ← readLine m line
    return first :: (← readLines m lines)

/-- Line `j` carries the parameters `text` for the statement `sql` that line `i` begins: neither a
statement marker nor a parameters marker stands between the two. -/
structure Paired (m : Markers) (lines : List String) (i j : Nat) (sql text : List Char) : Prop where
  before : i < j
  begins : ∃ line, lines[i]? = some line ∧ statementMarker? m line = some sql
  completes : ∃ line, lines[j]? = some line ∧ parametersMarker? m line = some text
  silent : ∀ k line, i < k → k < j → lines[k]? = some line → Silent m line

/-- Line `i` begins the statement `sql`, and no marker stands behind it. -/
private structure Opened (m : Markers) (lines : List String) (i : Nat) (sql : List Char) :
    Prop where
  begins : ∃ line, lines[i]? = some line ∧ statementMarker? m line = some sql
  silent : ∀ k line, i < k → lines[k]? = some line → Silent m line

variable {m : Markers}

private theorem paired_iff {lines : List String} {i j : Nat} {sql text : List Char} :
    Paired m lines i j sql text ↔ Opened m (lines.take j) i sql ∧
      ∃ line, lines[j]? = some line ∧ parametersMarker? m line = some text := by
  constructor
  · intro h
    refine ⟨⟨?_, ?_⟩, h.completes⟩
    · rw [List.getElem?_take_of_lt h.before]
      exact h.begins
    · intro k line hik hk
      rw [List.getElem?_take] at hk
      split at hk
      · exact h.silent k line hik ‹_› hk
      · cases hk
  · rintro ⟨⟨⟨line, hline, hbegins⟩, hsilent⟩, hcompletes⟩
    rw [List.getElem?_take] at hline
    split at hline
    · refine ⟨‹_›, ⟨line, hline, hbegins⟩, hcompletes, ?_⟩
      intro k other hik hkj hk
      exact hsilent k other hik (by rw [List.getElem?_take_of_lt hkj, hk])
    · cases hline

private theorem opened_append_iff {lines : List String} {line : String} {i : Nat}
    {sql : List Char} :
    Opened m (lines ++ [line]) i sql ↔
      (i = lines.length ∧ statementMarker? m line = some sql) ∨
      (Opened m lines i sql ∧ Silent m line) := by
  have hlast : (lines ++ [line])[lines.length]? = some line := List.getElem?_concat_length
  have hinit : ∀ k, k < lines.length → (lines ++ [line])[k]? = lines[k]? :=
    fun k hk => List.getElem?_append_left hk
  constructor
  · rintro ⟨⟨first, hfirst, hbegins⟩, hsilent⟩
    have hi : i < (lines ++ [line]).length := (List.getElem?_eq_some_iff.mp hfirst).1
    rw [List.length_append, List.length_singleton] at hi
    rcases Nat.lt_or_eq_of_le (Nat.le_of_lt_succ hi) with hlt | rfl
    · refine .inr ⟨⟨⟨first, ?_, hbegins⟩, ?_⟩, hsilent _ _ hlt hlast⟩
      · rw [← hinit i hlt, hfirst]
      · intro k other hik hk
        have hklt : k < lines.length := (List.getElem?_eq_some_iff.mp hk).1
        exact hsilent k other hik (by rw [hinit k hklt, hk])
    · rw [hlast] at hfirst
      obtain rfl := Option.some.inj hfirst
      exact .inl ⟨rfl, hbegins⟩
  · rintro (⟨rfl, hbegins⟩ | ⟨⟨⟨first, hfirst, hbegins⟩, hsilent⟩, hline⟩)
    · refine ⟨⟨line, hlast, hbegins⟩, ?_⟩
      intro k other hk hother
      have hklt := (List.getElem?_eq_some_iff.mp hother).1
      rw [List.length_append, List.length_singleton] at hklt
      omega
    · have hi : i < lines.length := (List.getElem?_eq_some_iff.mp hfirst).1
      refine ⟨⟨first, by rw [hinit i hi, hfirst], hbegins⟩, ?_⟩
      intro k other hik hother
      rcases Nat.lt_or_ge k lines.length with hk | hk
      · exact hsilent k other hik (by rw [← hinit k hk, hother])
      · have hklt := (List.getElem?_eq_some_iff.mp hother).1
        rw [List.length_append, List.length_singleton] at hklt
        obtain rfl : k = lines.length := by omega
        rw [hlast] at hother
        obtain rfl := Option.some.inj hother
        exact hline

/-- The slot behind some lines: the statement that they left open waits, with all that continues
it, or nothing does. -/
private inductive Tracks (m : Markers) (lines : List String) : Slot → Prop
  | waiting {i : Nat} {sql : List Char} (h : Opened m lines i sql) :
    Tracks m lines (holding (fragments m sql (lines.drop (i + 1))))
  | idle {slot : Slot} (h : ∀ i sql, ¬ Opened m lines i sql) (hslot : slot.pending = none) :
    Tracks m lines slot

private theorem tracks_nil : Tracks m [] .empty :=
  .idle (fun _ _ h => by obtain ⟨⟨_, hline, _⟩, _⟩ := h; cases hline) rfl

private theorem Tracks.append {lines : List String} {slot : Slot} (h : Tracks m lines slot)
    {line : String} (hline : Spelled m line) :
    Tracks m (lines ++ [line]) (slot.read m line).2 := by
  cases hs : statementMarker? m line with
  | some sql =>
    have hopened : Opened m (lines ++ [line]) lines.length sql :=
      opened_append_iff.mpr (.inl ⟨rfl, hs⟩)
    have hslot : Slot.only (String.ofList sql) =
        holding (fragments m sql ((lines ++ [line]).drop (lines.length + 1))) := by
      rw [List.drop_of_length_le (by simp)]
      simp [holding, fragments, continuing, Slot.only]
    rw [read_of_statementMarker hs, hslot]
    exact .waiting hopened
  | none =>
    cases hp : parametersMarker? m line with
    | some text =>
      have hnone : ∀ i sql, ¬ Opened m (lines ++ [line]) i sql := by
        intro i sql hopened
        rcases opened_append_iff.mp hopened with ⟨_, h⟩ | ⟨_, h⟩
        · rw [hs] at h
          cases h
        · rw [h.2] at hp
          cases hp
      refine .idle hnone ?_
      rw [read_of_parametersMarker hp hline]
      cases h with
      | waiting => rfl
      | idle _ hslot => rw [settle_of_pending_eq_none hslot, hslot]
    | none =>
      have hsilent : Silent m line := ⟨hs, hp⟩
      cases h with
      | @waiting i sql hopened =>
        have hi : i + 1 ≤ lines.length := by
          obtain ⟨first, hfirst, _⟩ := hopened.begins
          exact (List.getElem?_eq_some_iff.mp hfirst).1
        rw [holding_read_of_silent hsilent, ← List.drop_append_of_le_length hi]
        exact .waiting (opened_append_iff.mpr (.inr ⟨hopened, hsilent⟩))
      | idle hnone hslot =>
        refine .idle ?_ ?_
        · intro i sql hopened
          rcases opened_append_iff.mp hopened with ⟨_, h⟩ | ⟨h, _⟩
          · rw [hs] at h
            cases h
          · exact hnone i sql h
        · rw [read_of_silent hsilent]
          split
          · exact hslot
          · simp [Slot.gather, hslot]

/-- The invariant of a run. -/
private theorem tracks_afterLines (lines : List String) (h : ∀ line ∈ lines, Spelled m line) :
    Tracks m lines (Slot.empty.afterLines m lines) := by
  induction lines using List.reverseRecOn with
  | nil => exact tracks_nil
  | append_singleton lines line ih =>
    have hinit : ∀ line ∈ lines, Spelled m line := fun x hx => h x (List.mem_append_left _ hx)
    have hline : Spelled m line := h line (List.mem_append_right _ (List.mem_singleton_self line))
    rw [Slot.afterLines_append]
    exact (ih hinit).append hline

private theorem Opened.begins_at {lines : List String} {i k : Nat} {sql other : List Char}
    (h : Opened m lines i sql) (h' : Opened m lines k other) : k ≤ i := by
  by_contra hlt
  obtain ⟨line, hline, hbegins⟩ := h'.begins
  rw [(h.silent k line (Nat.lt_of_not_le hlt) hline).1] at hbegins
  cases hbegins

private theorem Opened.unique {lines : List String} {i k : Nat} {sql other : List Char}
    (h : Opened m lines i sql) (h' : Opened m lines k other) : i = k ∧ sql = other := by
  obtain rfl := Nat.le_antisymm (h'.begins_at h) (h.begins_at h')
  obtain ⟨line, hline, hbegins⟩ := h.begins
  obtain ⟨line', hline', hbegins'⟩ := h'.begins
  rw [hline] at hline'
  obtain rfl := Option.some.inj hline'
  rw [hbegins] at hbegins'
  exact ⟨rfl, Option.some.inj hbegins'⟩

private theorem Tracks.read_eq_some_iff {lines : List String} {slot : Slot}
    (h : Tracks m lines slot) {line : String} (hline : Spelled m line) (statement : Statement) :
    (slot.read m line).1 = some statement ↔ ∃ i sql text, Opened m lines i sql ∧
      parametersMarker? m line = some text ∧ statement = .complete
        (" ".intercalate (fragments m sql (lines.drop (i + 1)))) (String.ofList text) := by
  cases hp : parametersMarker? m line with
  | none =>
    have hnone : (slot.read m line).1 = none := by
      cases hs : statementMarker? m line with
      | some sql => rw [read_of_statementMarker hs]
      | none => rw [read_of_silent ⟨hs, hp⟩]
    rw [hnone]
    constructor
    · intro h
      cases h
    · rintro ⟨_, _, _, _, h, _⟩
      cases h
  | some text =>
    rw [read_of_parametersMarker hp hline]
    cases h with
    | @waiting i sql hopened =>
      constructor
      · intro h
        exact ⟨i, sql, text, hopened, rfl, (Option.some.inj h).symm⟩
      · rintro ⟨k, other, text', hother, htext, rfl⟩
        obtain ⟨rfl, rfl⟩ := hopened.unique hother
        obtain rfl := Option.some.inj htext
        rfl
    | idle hnone hslot =>
      constructor
      · intro h
        rw [settle_of_pending_eq_none hslot] at h
        cases h
      · rintro ⟨i, sql, _, hopened, _⟩
        exact absurd hopened (hnone i sql)

private theorem results_eq_some_iff {lines : List String} (h : ∀ line ∈ lines, Spelled m line)
    (j : Nat) (statement : Statement) :
    (Slot.results m .empty lines)[j]? = some (some statement) ↔
      ∃ i sql text, Paired m lines i j sql text ∧ statement = .complete
        (" ".intercalate (fragments m sql ((lines.take j).drop (i + 1)))) (String.ofList text) := by
  have htake : ∀ line ∈ lines.take j, Spelled m line := fun x hx => h x (List.mem_of_mem_take hx)
  rw [Slot.getElem?_results]
  simp only [paired_iff]
  constructor
  · intro hj
    obtain ⟨line, hline, hread⟩ := Option.map_eq_some_iff.mp hj
    have hspelled := h line (List.mem_of_getElem? hline)
    obtain ⟨i, sql, text, hopened, htext, hs⟩ :=
      ((tracks_afterLines _ htake).read_eq_some_iff hspelled statement).mp hread
    exact ⟨i, sql, text, ⟨hopened, line, hline, htext⟩, hs⟩
  · rintro ⟨i, sql, text, ⟨hopened, line, hline, htext⟩, hs⟩
    have hspelled := h line (List.mem_of_getElem? hline)
    rw [hline]
    exact congrArg some (((tracks_afterLines _ htake).read_eq_some_iff hspelled statement).mpr
      ⟨i, sql, text, hopened, htext, hs⟩)

private theorem Paired.end_le {lines : List String} {i j l : Nat} {sql text other more : List Char}
    (h : Paired m lines i j sql text) (h' : Paired m lines i l other more) : l ≤ j := by
  by_contra hjl
  obtain ⟨line, hline, hcompletes⟩ := h.completes
  rw [(h'.silent j line h.before (Nat.lt_of_not_le hjl) hline).2] at hcompletes
  cases hcompletes

theorem readLines_writes (lines : List String) (slot : Slot) :
    (readLines m lines).Writes slot (slot.results m lines) (slot.afterLines m lines)
      (slot.records m lines) := by
  induction lines generalizing slot with
  | nil => exact writes_pure _ _
  | cons line lines ih => exact (readLine_writes m line slot).bind ((ih _).bind_pure _)

theorem readLines_gives (lines : List String) (slot : Slot) :
    (readLines m lines).Gives slot (slot.results m lines) (slot.afterLines m lines) :=
  (readLines_writes lines slot).gives

/-- A line gives a statement if and only if it carries the parameters for the last statement that
began before it. The text of the statement is what its marker carries and then, each behind a space,
the lines between that continue it; its parameters are those of the line; everything else in it comes
from these two. No marker is used twice. This holds for the markers of any configuration, if every
parameters marker spells its token as it is configured. -/
theorem readLines_pairs (m : Markers) (lines : List String) (h : ∀ line ∈ lines, Spelled m line) :
    ∃ results, (readLines m lines .quiet .empty).value = .ok results ∧
      results.length = lines.length ∧
      (∀ j, (∃ statement, results[j]? = some (some statement)) ↔
        ∃ i sql text, Paired m lines i j sql text) ∧
      (∀ i j sql text statement, Paired m lines i j sql text →
        results[j]? = some (some statement) →
        statement.logged = " ".intercalate (fragments m sql ((lines.take j).drop (i + 1))) ∧
        statement.parameters = Parameter.readAll (String.ofList text) ∧
        statement = .complete statement.logged (String.ofList text)) ∧
      (∀ i j sql text, Paired m lines i j sql text →
        ∀ k l other more, Paired m lines k l other more → (i = k ↔ j = l)) := by
  have hgiven : ∀ {i j sql text}, Paired m lines i j sql text →
      (Slot.results m .empty lines)[j]? = some (some (.complete
        (" ".intercalate (fragments m sql ((lines.take j).drop (i + 1)))) (String.ofList text))) :=
    fun hpaired => (results_eq_some_iff h _ _).mpr ⟨_, _, _, hpaired, rfl⟩
  refine ⟨_, (readLines_gives lines .empty).value_eq, Slot.length_results _ _ _, ?_, ?_, ?_⟩
  · intro j
    constructor
    · rintro ⟨statement, hj⟩
      obtain ⟨i, sql, text, hpaired, -⟩ := (results_eq_some_iff h j statement).mp hj
      exact ⟨i, sql, text, hpaired⟩
    · rintro ⟨i, sql, text, hpaired⟩
      exact ⟨_, hgiven hpaired⟩
  · intro i j sql text statement hpaired hj
    rw [hgiven hpaired] at hj
    obtain rfl := Option.some.inj (Option.some.inj hj)
    exact ⟨rfl, rfl, rfl⟩
  · intro i j sql text hij k l other more hkl
    constructor
    · rintro rfl
      exact Nat.le_antisymm (hkl.end_le hij) (hij.end_le hkl)
    · rintro rfl
      exact ((paired_iff.mp hij).1.unique (paired_iff.mp hkl).1).1

/-- A statement on two lines, with the output of a framework between them. -/
def shortRun : List String :=
  ["==> Preparing: SELECT id", "<== Total: 1", "FROM t WHERE id = ?", "==> Parameters: 7(Integer)"]

private theorem shortRun_paired :
    Paired .standard shortRun 0 3 "SELECT id".toList "7(Integer)".toList where
  before := by decide
  begins := ⟨_, rfl, by decide⟩
  completes := ⟨_, rfl, by decide⟩
  silent k line hk hlt hline := by
    obtain rfl | rfl : k = 1 ∨ k = 2 := by omega
    · obtain rfl := Option.some.inj hline
      exact ⟨by decide, by decide⟩
    · obtain rfl := Option.some.inj hline
      exact ⟨by decide, by decide⟩

theorem readLines_pairs_shortRun :
    (∀ line ∈ shortRun, Spelled .standard line) ∧
    ∃ statement, (readLines .standard shortRun .quiet .empty).value =
        .ok [none, none, none, some statement] ∧
      statement.logged = "SELECT id FROM t WHERE id = ?" ∧
      statement.parameters = [⟨.integer 7, "7(Integer)"⟩] := by
  have h : ∀ line ∈ shortRun, Spelled .standard line := by
    unfold Spelled
    decide
  have hearlier : ∀ line ∈ shortRun.take 3, parametersMarker? .standard line = none := by decide
  obtain ⟨results, hvalue, hlength, hgives, hpairs, -⟩ := readLines_pairs .standard shortRun h
  have hnone : ∀ j < 3, ∀ result, results[j]? = some result → result = none := by
    intro j hj result hresult
    rw [Option.eq_none_iff_forall_ne_some]
    rintro statement rfl
    obtain ⟨i, sql, text, hpaired⟩ := (hgives j).mp ⟨statement, hresult⟩
    obtain ⟨line, hline, hcompletes⟩ := hpaired.completes
    rw [← List.getElem?_take_of_lt hj] at hline
    rw [hearlier line (List.mem_of_getElem? hline)] at hcompletes
    cases hcompletes
  obtain ⟨statement, hlast⟩ := (hgives 3).mpr ⟨0, _, _, shortRun_paired⟩
  obtain ⟨hlogged, hparameters, -⟩ := hpairs 0 3 _ _ statement shortRun_paired hlast
  have hresults : results = [none, none, none, some statement] := by
    match results, hlength with
    | [a, b, c, d], _ =>
      obtain rfl := Option.some.inj hlast
      obtain rfl := hnone 0 (by decide) a rfl
      obtain rfl := hnone 1 (by decide) b rfl
      obtain rfl := hnone 2 (by decide) c rfl
      rfl
  rw [hresults] at hvalue
  exact ⟨h, statement, hvalue, hlogged.trans (by decide), hparameters.trans rfl⟩

end SqlRecovery.Pairing
