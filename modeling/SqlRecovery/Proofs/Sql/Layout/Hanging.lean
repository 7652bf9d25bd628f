import SqlRecovery.Proofs.Sql.Slice

/-! A keyword with a comma list behind it, and the modifier that it may take over from the list. -/
namespace SqlRecovery.Sql.Layout
open Text

variable {g g' : Bool} {k x x' : List Char}

/-- A keyword on a line of its own. -/
theorem laid_keyword (h : Headed g g' k x x') : Laid g g' k k ('\n' :: k) ('\n' :: k) := by
  have hchunk := Laid.chunk true (List.cons_ne_nil '\n' []) rfl rfl h.seam h.seam'
  change Laid g g' k k ('\n' :: trim k) ('\n' :: trim k) at hchunk
  rwa [trim_of_ink h.keyword] at hchunk

theorem allBlank_indent (n : Nat) : allBlank ('\n' :: List.replicate n ' ') = true := by
  rw [allBlank, List.all_eq_true]
  intro c hc
  rcases List.mem_cons.mp hc with rfl | hc
  · rfl
  · rw [(List.mem_replicate.mp hc).2]
    rfl

theorem laid_hanging (h : Headed g g' k x x') :
    Laid g g' (k ++ x) (k ++ x') (shown (hanging k (items x))) (shown (hanging k (items x'))) := by
  have hink := h.twins.alike.ink_eq.symm
  rw [shown_hanging, shown_hanging]
  exact (laid_keyword h).append (laid_items (List.cons_ne_nil _ _) rfl (List.cons_ne_nil _ _)
    (allBlank_indent _) hink (fun _ => h.rest) (fun _ => h.rest'))

/-- A modifier in front of a list: what it leaves of the text. -/
private theorem exists_modifier {word : String} (hword : Worded word)
    (hplain : ink word.toList = word.toList) (hx : Tight x)
    (h : spelled word.toList (trim x) = true) :
    ∃ m y, x = m ++ y ∧ trim m = (trim x).take word.length ∧
      (trim x).take word.length = (ink x).take word.length ∧ startsName y = false ∧
      items (trimStart ((trim x).drop word.length)) = items y := by
  obtain ⟨w, w', hsplit, hw, hw'⟩ := exists_trim x
  have hlength := length_ink_of_spelled hword h
  rw [hplain, String.length_toList] at hlength
  have htake : ink ((trim x).take word.length) = (trim x).take word.length := by
    apply List.filter_sublist.eq_of_length_le
    change _ ≤ (ink ((trim x).take word.length)).length
    rw [hlength]
    exact List.length_take_le _ _
  have hend := startsName_of_spelled h
  rw [String.length_toList] at hend
  refine ⟨w ++ (trim x).take word.length, (trim x).drop word.length ++ w', ?_, ?_, ?_, ?_, ?_⟩
  · rw [List.append_assoc, ← List.append_assoc (List.take _ _), List.take_append_drop, ← hsplit]
  · rw [trim_of_allBlank_append hw, trim_of_ink htake]
  · rw [← ink_trim x]
    conv => rhs; rw [← List.take_append_drop word.length (trim x), ink_append]
    rw [List.take_left' hlength, htake]
  · cases hd : (trim x).drop word.length with
    | cons c y =>
      rw [hd] at hend
      exact hend
    | nil =>
      cases w' with
      | nil => rfl
      | cons c w' =>
        rw [allBlank, List.all_cons, Bool.and_eq_true] at hw'
        rw [hsplit] at hx
        obtain ⟨rfl, -⟩ := (hx.of_append.2.of_append.2).1 hw'.1
        rfl
  · rw [items_trimStart, items_append_of_allBlank hw']

private theorem startsWithWord_congr {word : String} (hword : Worded word) (hs : Twins x x') :
    startsWithWord word (trim x) = startsWithWord word (trim x') := by
  have hspelled : ∀ {x : List Char}, Tight x →
      startsWithWord word (trim x) = spelledBy false word.toList (keys false x) := by
    intro x hx
    have hhead : ((trim x).head?.map isBlank).getD false = false := by
      rw [head?_trim hx]
      cases hi : ink x with
      | nil => rfl
      | cons c y =>
        have hc : c ∈ ink x := by rw [hi]; exact List.mem_cons_self
        exact not_blank_of_mem_ink hc
    have htight : Tight (trim x) := by
      rw [trim_of_tight hx]
      exact tight_collapse x
    rw [startsWithWord_eq, spelled_eq hword htight fun _ => hhead, trim_of_tight hx, keys_collapse]
  rw [hspelled hs.tight, hspelled hs.tight', hs.alike]

theorem modifierLength_cases (fields : List Char) : modifierLength fields = 0 ∨
    ∃ word, Worded word ∧ ink word.toList = word.toList ∧ modifierLength fields = word.length ∧
      startsWithWord word fields = true := by
  rw [modifierLength]
  split
  case isTrue h => exact .inr ⟨"DISTINCT", by decide, by decide, rfl, h⟩
  case isFalse =>
    split
    case isTrue h => exact .inr ⟨"ALL", by decide, by decide, rfl, h⟩
    case isFalse => exact .inl rfl

private theorem modifierLength_congr (hs : Twins x x') :
    modifierLength (trim x) = modifierLength (trim x') := by
  have hdistinct : Worded "DISTINCT" := by decide
  have hall : Worded "ALL" := by decide
  rw [modifierLength, modifierLength, startsWithWord_congr hdistinct hs,
    startsWithWord_congr hall hs]

theorem takeModifier_of_zero {fields : List Char} (h : modifierLength fields = 0)
    (head : List Char) : takeModifier head fields = (head, fields) := by
  rw [takeModifier, h]
  rfl

theorem takeModifier_of_pos {fields : List Char} (h : 0 < modifierLength fields)
    (head : List Char) : takeModifier head fields =
      (head ++ ' ' :: fields.take (modifierLength fields),
        trimStart (fields.drop (modifierLength fields))) := by
  rw [takeModifier]
  cases hn : modifierLength fields with
  | zero => omega
  | succ n => rfl

/-- A keyword with a list behind it, of which it takes over a modifier. -/
theorem laid_modified (h : Headed g g' k x x') :
    Laid g g' (k ++ x) (k ++ x')
      (shown (hanging (takeModifier k (trim x)).1 (items (takeModifier k (trim x)).2)))
      (shown (hanging (takeModifier k (trim x')).1 (items (takeModifier k (trim x')).2))) := by
  have hs := h.twins
  have hsame := modifierLength_congr hs
  rcases modifierLength_cases (trim x) with hzero | ⟨word, hword, hplain, hlength, hstarts⟩
  · rw [takeModifier_of_zero hzero, takeModifier_of_zero (hsame ▸ hzero), items_trim, items_trim]
    exact laid_hanging h
  · have hpos := hword.length_pos
    have hstarts' := hstarts
    rw [startsWithWord_congr hword hs, startsWithWord_eq] at hstarts'
    rw [startsWithWord_eq] at hstarts
    have hlength' := hlength
    rw [hsame] at hlength'
    rw [takeModifier_of_pos (by omega), takeModifier_of_pos (by omega), hlength, hlength']
    obtain ⟨m, y, hsplit, hm, htake, hy, hitems⟩ := exists_modifier hword hplain hs.tight hstarts
    obtain ⟨m', y', hsplit', hm', htake', hy', hitems'⟩ :=
      exists_modifier hword hplain hs.tight' hstarts'
    have hword' : (trim x').take word.length = (trim x).take word.length := by
      rw [htake, htake', hs.alike.ink_eq]
    have hm'' : ink m' = ink m := by rw [← ink_trim m, ← ink_trim m', hm, hm', hword']
    have hink : ink y' = ink y := by
      have h := hs.alike.ink_eq
      rw [hsplit, hsplit', ink_append, ink_append, hm''] at h
      exact (List.append_cancel_left h).symm
    rw [hword'] at hm'
    have hmodifier : Laid (glue g k) (glue g' k) m m' (' ' :: trim m) (' ' :: trim m') :=
      .chunk true (List.cons_ne_nil ' ' []) rfl hm''
        (fun _ => startsName_of_append (hsplit ▸ h.rest))
        (fun _ => startsName_of_append (hsplit' ▸ h.rest'))
    rw [hm, hm'] at hmodifier
    rw [hitems, hitems', hword', shown_hanging, shown_hanging]
    generalize (trim x).take word.length = modifier at hmodifier ⊢
    have hall := (laid_keyword h).append (hmodifier.append
      (laid_items (List.cons_ne_nil ' ' []) rfl (List.cons_ne_nil _ _)
        (allBlank_indent ((k ++ ' ' :: modifier).length + 1)) hink (fun _ => hy) (fun _ => hy')))
    rw [hsplit, hsplit']
    simpa using hall

end SqlRecovery.Sql.Layout
