import SqlRecovery.Proofs.Pairing.Guard
import SqlRecovery.Proofs.Text.Occurrence

/-! How a slot represents the waiting statement. Its text and its fragments are kept apart, and they
agree in every slot that comes into use, also behind lines that fail half-way. -/
namespace SqlRecovery
open Text Marker LogLine

namespace Slot

/-- A fragment behind the first one: a trimmed line that continues a statement. It does not begin
with the sentinel, and the parameters token does not occur in it. -/
structure Continues (m : Markers) (fragment : String) : Prop where
  trimmed : trim fragment.toList = fragment.toList
  nonempty : fragment ≠ ""
  continuation : isContinuation fragment.toList = true
  no_sentinel : m.startsWithSentinel fragment.toList = false
  no_parameters : m.mentionsParameters fragment.toList = false

/-- A statement waits exactly if there are fragments, and it is these with single spaces between
them. -/
structure Represents (m : Markers) (slot : Slot) : Prop where
  waits_iff : slot.pending.isSome ↔ slot.fragments ≠ []
  joined : ∀ sql, slot.pending = some sql → sql = " ".intercalate slot.fragments
  first : ∀ fragment, slot.fragments.head? = some fragment → trim fragment.toList = fragment.toList
  later : ∀ fragment ∈ slot.fragments.tail, Continues m fragment

variable {m : Markers} {slot : Slot} {line : String}

theorem represents_empty (m : Markers) : Represents m .empty where
  waits_iff := by simp [empty]
  joined _ h := by cases h
  first _ h := by cases h
  later := List.forall_mem_nil _

theorem represents_only {sql : String} (h : trim sql.toList = sql.toList) (m : Markers) :
    Represents m (.only sql) where
  waits_iff := by simp [only]
  joined _ hsql := by
    obtain rfl := Option.some.inj hsql
    exact String.intercalate_singleton.symm
  first _ hfirst := by
    obtain rfl := Option.some.inj hfirst
    exact h
  later := List.forall_mem_nil _

/-- What is not in a line is not in it without the blanks at its ends. -/
private theorem mentionsParameters_trim (h : m.mentionsParameters line.toList = false) :
    m.mentionsParameters (trim line.toList) = false := by
  rw [← Bool.not_eq_true, Markers.mentionsParameters, occursIn_iff] at h ⊢
  exact fun htrim => h (htrim.trans (trim_infix_self _))

theorem continues_fragment (h : takes m line = true) : Continues m (fragment line) := by
  simp only [takes, Bool.and_eq_true, Bool.not_eq_true'] at h
  obtain ⟨⟨hparameters, hsentinel⟩, hcontinuation⟩ := h
  have htext : (fragment line).toList = trim line.toList := String.toList_ofList
  constructor
  · rw [htext, trim_trim]
  · rintro hempty
    rw [← htext, hempty] at hcontinuation
    cases hcontinuation
  · rw [htext, hcontinuation]
  · rw [htext, hsentinel]
  · rw [htext, mentionsParameters_trim hparameters]

namespace Represents

theorem fragments_ne_nil (h : Represents m slot) (hwaits : slot.pending.isSome) :
    slot.fragments ≠ [] := h.waits_iff.mp hwaits

/-- Without a waiting statement there are no fragments of one. -/
theorem eq_empty (h : Represents m slot) (hnone : slot.pending = none) : slot = .empty := by
  obtain ⟨pending, fragments⟩ := slot
  obtain rfl : pending = none := hnone
  have hnil : fragments = [] := by
    by_contra hne
    cases h.waits_iff.mpr hne
  rw [hnil]
  rfl

theorem extend (h : Represents m slot) (hwaits : slot.pending.isSome) {more : String}
    (hmore : Continues m more) : Represents m (slot.extend more) where
  waits_iff := by simp [Slot.extend]
  joined _ hsql := (Option.some.inj hsql).symm
  first _ hfirst := by
    rw [Slot.extend, List.head?_append_of_ne_nil _ (h.fragments_ne_nil hwaits)] at hfirst
    exact h.first _ hfirst
  later := by
    rw [Slot.extend, List.tail_append_of_ne_nil (h.fragments_ne_nil hwaits)]
    exact List.forall_mem_append.mpr ⟨h.later, List.forall_mem_singleton.mpr hmore⟩

theorem gather (h : Represents m slot) (line : String) : Represents m (slot.gather m line) := by
  rw [Slot.gather]
  split
  case isTrue hline =>
    obtain ⟨hwaits, htakes⟩ := Bool.and_eq_true_iff.mp hline
    exact h.extend hwaits (continues_fragment htakes)
  case isFalse => exact h

theorem settle (h : Represents m slot) (parameters : Option (List Char)) :
    Represents m (slot.settle parameters).2 := by
  unfold Slot.settle
  split
  · exact represents_empty m
  · exact h

/-- One line, whatever it is. -/
theorem read (h : Represents m slot) (line : String) : Represents m (slot.read m line).2 := by
  rw [Slot.read]
  split
  · exact h
  · cases hs : m.statement? line.toList with
    | some sql =>
      refine represents_only ?_ m
      obtain ⟨text, -, rfl⟩ := Option.map_eq_some_iff.mp hs
      rw [String.toList_ofList, trim_trim]
    | none => exact (h.gather line).settle _

theorem afterLines (h : Represents m slot) (lines : List String) :
    Represents m (slot.afterLines m lines) := by
  induction lines generalizing slot with
  | nil => exact h
  | cons line lines ih => exact ih (h.read line)

end Represents

end Slot

namespace Pairing
open Logged Slot

/-- The slots of several parsers for the same markers. There may be new ones and copies of those
there are. A slot may be emptied, and it may read a line, with a guard or without one, as long as
the call returns; recording may fail on any line, and a guarded call returns all the same. -/
inductive InUse (m : Markers) : List Slot → Prop
  | none : InUse m []
  | fresh {slots : List Slot} (h : InUse m slots) : InUse m (slots ++ [.empty])
  | copied {slots : List Slot} {slot : Slot} (h : InUse m slots) (hslot : slot ∈ slots) :
    InUse m (slots ++ [slot])
  | emptied {before behind : List Slot} {slot : Slot} (h : InUse m (before ++ slot :: behind)) :
    InUse m (before ++ .empty :: behind)
  | read {before behind : List Slot} {slot : Slot} (recorder : Recorder) (line : String)
    {given : Option Statement} (h : InUse m (before ++ slot :: behind))
    (hreturns : (readLine m line recorder slot).value = .ok given) :
    InUse m (before ++ (readLine m line recorder slot).state :: behind)
  | guarded {before behind : List Slot} {slot : Slot} (recorder : Recorder) (line : String)
    {given : Option Statement} (h : InUse m (before ++ slot :: behind))
    (hreturns : (guardedLine m line recorder slot).value = .ok given) :
    InUse m (before ++ (guardedLine m line recorder slot).state :: behind)

variable {m : Markers} {line : String} {recorder : Recorder} {slot : Slot}
  {given : Option Statement}

/-- A line that is read to its end leaves what it leaves if recording never fails. -/
private theorem state_of_returns (h : (readLine m line recorder slot).value = .ok given) :
    (readLine m line recorder slot).state = (slot.read m line).2 := by
  rcases hread : readLine m line recorder slot with ⟨value, next, written⟩
  rw [hread] at h
  obtain rfl : value = .ok given := h
  have hquiet := (readLine_plain m line).agrees _ _ _ _ _ hread
  have hstate := (readLine_gives m line slot).state_eq
  rw [hquiet] at hstate
  exact hstate

/-- A guarded line is read to its end, or it leaves nothing. -/
private theorem guarded_state_of_returns
    (h : (guardedLine m line recorder slot).value = .ok given) :
    (guardedLine m line recorder slot).state = (slot.read m line).2 ∨
      (guardedLine m line recorder slot).state = .empty := by
  rw [guardedLine, recover] at h ⊢
  rcases hread : readLine m line recorder slot with ⟨words | value, next, written⟩
  · right
    rw [hread] at h
    dsimp only at h ⊢
    rw [bind_apply, andThen, log] at h ⊢
    cases hfault : recorder ⟨.error, "解析日志行失败: " ++ words ++ " (" ++ line ++ ")"⟩ with
    | none => rfl
    | some cause =>
      rw [hfault] at h
      cases h
  · left
    have hreturns : (readLine m line recorder slot).value = .ok value := by rw [hread]
    have hstate := state_of_returns hreturns
    rw [hread] at hstate
    exact hstate

/-- In every slot that comes into use, a statement waits exactly if there are fragments. It consists
of them, with single spaces between them. The first of them is trimmed. Every other one is a trimmed
line that is not empty, continues a statement, does not begin with the sentinel and does not mention
the parameters token. -/
theorem inUse_represents {slots : List Slot} (h : InUse m slots) :
    ∀ slot ∈ slots, Represents m slot := by
  induction h with
  | none => exact List.forall_mem_nil _
  | fresh _ ih =>
    exact List.forall_mem_append.mpr ⟨ih, List.forall_mem_singleton.mpr (represents_empty m)⟩
  | copied _ hslot ih =>
    exact List.forall_mem_append.mpr ⟨ih, List.forall_mem_singleton.mpr (ih _ hslot)⟩
  | emptied _ ih =>
    rw [List.forall_mem_append, List.forall_mem_cons] at ih ⊢
    exact ⟨ih.1, represents_empty m, ih.2.2⟩
  | @read before behind slot recorder line given _ hreturns ih =>
    rw [List.forall_mem_append, List.forall_mem_cons] at ih ⊢
    rw [state_of_returns hreturns]
    exact ⟨ih.1, ih.2.1.read line, ih.2.2⟩
  | @guarded before behind slot recorder line given _ hreturns ih =>
    rw [List.forall_mem_append, List.forall_mem_cons] at ih ⊢
    rcases guarded_state_of_returns hreturns with hstate | hstate
    · rw [hstate]
      exact ⟨ih.1, ih.2.1.read line, ih.2.2⟩
    · rw [hstate]
      exact ⟨ih.1, represents_empty m, ih.2.2⟩

/-- A recorder that fails on the record of a completed statement. -/
def fullDisk : Recorder := fun record => if record.level = .info then some "disk full" else none

/-- A slot in which a statement of two lines waits. -/
def waiting : Slot := ⟨some "select a , b", ["select a", ", b"]⟩

/-- The slot behind parameters on which recording failed, and a copy that was made before. -/
def copiedSlots : List Slot := [.empty, waiting]

private theorem inUse_copiedSlots : InUse .standard copiedSlots := by
  have hfresh : InUse .standard ([] ++ Slot.empty :: []) := .fresh .none
  have hbegun : InUse .standard ([] ++ Slot.only "select a" :: []) :=
    .read .quiet "==> Preparing: select a" hfresh rfl
  have hmore : InUse .standard ([] ++ waiting :: []) :=
    .read .quiet " , b " hbegun rfl
  have hcopied : InUse .standard ([] ++ waiting :: [waiting]) :=
    .copied hmore (List.mem_singleton_self _)
  exact .guarded fullDisk "==> Parameters: " hcopied rfl

theorem inUse_represents_copiedSlots :
    InUse .standard copiedSlots ∧ ∀ slot ∈ copiedSlots, Represents .standard slot :=
  ⟨inUse_copiedSlots, inUse_represents inUse_copiedSlots⟩

end Pairing

end SqlRecovery
