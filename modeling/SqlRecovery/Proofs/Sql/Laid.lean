import SqlRecovery.Proofs.Sql.Chunk
import SqlRecovery.Proofs.Sql.Items
import SqlRecovery.Sql.Layout

/-! Two texts that are laid out alike: they are cut into chunks that are shown alike. -/
namespace SqlRecovery.Sql
open Text Layout

/-- The texts `x` and `x'` are laid out as `u` and `u'` from chunks that correspond. -/
def Laid (g g' : Bool) (x x' u u' : List Char) : Prop :=
  ∃ cs cs', Cut g x cs ∧ Cut g' x' cs' ∧ List.Forall₂ Chunk.Like cs cs' ∧
    printed cs = u ∧ printed cs' = u'

namespace Laid
variable {g g' : Bool} {x x' y y' u u' v v' : List Char}

theorem nil (g g' : Bool) : Laid g g' [] [] [] [] :=
  ⟨[], [], .nil g, .nil g', .nil, rfl, rfl⟩

theorem append (h : Laid g g' x x' u u') (h' : Laid (glue g x) (glue g' x') y y' v v') :
    Laid g g' (x ++ y) (x' ++ y') (u ++ v) (u' ++ v') := by
  obtain ⟨cs, cs', hcut, hcut', hlike, rfl, rfl⟩ := h
  obtain ⟨ds, ds', hd, hd', hdlike, rfl, rfl⟩ := h'
  exact ⟨cs ++ ds, cs' ++ ds', hcut.append hd, hcut'.append hd', List.rel_append hlike hdlike,
    List.flatMap_append, List.flatMap_append⟩

/-- A single chunk. -/
theorem chunk (always : Bool) {lead : List Char} (hlead : lead ≠ []) (hblank : allBlank lead = true)
    (hink : ink x' = ink x) (hseam : g = true → startsName x = false)
    (hseam' : g' = true → startsName x' = false) :
    Laid g g' x x' (Chunk.print ⟨lead, always, x⟩) (Chunk.print ⟨lead, always, x'⟩) := by
  have hcut : ∀ {g : Bool} {x : List Char}, (g = true → startsName x = false) →
      Cut g x [⟨lead, always, x⟩] := by
    intro g x hseam
    have h := Cut.cons (c := ⟨lead, always, x⟩) ⟨hblank, fun h => absurd h hlead⟩ hseam (.nil _)
    rwa [List.append_nil] at h
  exact ⟨_, _, hcut hseam, hcut hseam', .cons ⟨rfl, rfl, hink⟩ .nil, List.append_nil _,
    List.append_nil _⟩

theorem comma (g g' : Bool) : Laid g g' [','] [','] [','] [','] := by
  have hcut : ∀ g, Cut g [','] [⟨[], true, [',']⟩] := by
    intro g
    exact Cut.cons (c := ⟨[], true, [',']⟩) ⟨rfl, fun _ => rfl⟩ (fun _ => rfl) (.nil _)
  exact ⟨_, _, hcut g, hcut g', .cons ⟨rfl, rfl, rfl⟩ .nil, rfl, rfl⟩

end Laid

/-- The items of a list as they are shown: each behind its blanks, and with a comma behind each but
the last. -/
def listed (first lead : List Char) : List (List Char) → List Char
  | [] => []
  | item :: items => first ++ item ++ items.flatMap fun item => ',' :: (lead ++ item)

section
variable {g g' : Bool} {x x' lead : List Char}

theorem startsName_of_append {x y : List Char} (h : startsName (x ++ y) = false) :
    startsName x = false := by
  cases x with
  | nil => rfl
  | cons c x => exact h

section
variable {P : List Char → Prop} {first render : List Char → List Char} {ps ps' : List (List Char)}

/-- Pieces behind commas. -/
private theorem laid_rest (g g' : Bool) (h : List.Forall₂ (fun p p' => ink p' = ink p) ps ps')
    (hps : ∀ p ∈ ps, P p) (hps' : ∀ p' ∈ ps', P p')
    (hrender : ∀ {p p' : List Char}, ink p' = ink p → P p → P p' →
      Laid false false p p' (render p) (render p')) :
    Laid g g' (ps.flatMap ([','] ++ ·)) (ps'.flatMap ([','] ++ ·))
      (ps.flatMap fun p => ',' :: render p) (ps'.flatMap fun p => ',' :: render p) := by
  induction h generalizing g g' with
  | nil => exact .nil g g'
  | @cons p p' ps ps' hp hrest ih =>
    rw [List.forall_mem_cons] at hps hps'
    rw [List.flatMap_cons, List.flatMap_cons, List.flatMap_cons, List.flatMap_cons,
      List.append_assoc, List.append_assoc]
    exact (Laid.comma g g').append ((hrender hp hps.1 hps'.1).append (ih _ _ hps.2 hps'.2))

/-- A text is laid out piece by piece, with the commas between the pieces kept. -/
theorem laid_pieces (hink : ink x' = ink x) (hseam : g = true → startsName x = false)
    (hseam' : g' = true → startsName x' = false) (hx : ∀ p ∈ Nesting.outside.pieces x, P p)
    (hx' : ∀ p' ∈ Nesting.outside.pieces x', P p')
    (hfirst : ∀ {p p' : List Char}, ink p' = ink p → P p → P p' →
      (g = true → startsName p = false) → (g' = true → startsName p' = false) →
      Laid g g' p p' (first p) (first p'))
    (hrender : ∀ {p p' : List Char}, ink p' = ink p → P p → P p' →
      Laid false false p p' (render p) (render p')) :
    ∃ p ps p' ps', Nesting.outside.pieces x = p :: ps ∧ Nesting.outside.pieces x' = p' :: ps' ∧
      Laid g g' x x' (first p ++ ps.flatMap fun p => ',' :: render p)
        (first p' ++ ps'.flatMap fun p => ',' :: render p) := by
  have hpieces := forall₂_pieces .outside hink
  have hjoin := joinWith_pieces .outside x
  have hjoin' := joinWith_pieces .outside x'
  have hne := pieces_ne_nil .outside x
  generalize Nesting.outside.pieces x = ps at hpieces hjoin hne hx ⊢
  generalize Nesting.outside.pieces x' = ps' at hpieces hjoin' hx' ⊢
  cases hpieces with
  | nil => exact absurd rfl hne
  | @cons p p' ps ps' hp hrest =>
    rw [List.forall_mem_cons] at hx hx'
    rw [joinWith_cons] at hjoin hjoin'
    subst hjoin hjoin'
    exact ⟨p, ps, p', ps', rfl, rfl, (hfirst hp hx.1 hx'.1
      (fun h => startsName_of_append (hseam h)) (fun h => startsName_of_append (hseam' h))).append
        (laid_rest _ _ hrest hx.2 hx'.2 hrender)⟩

end

/-- A comma list, each item behind its blanks. -/
theorem laid_items {first : List Char} (hfirst : first ≠ []) (hfblank : allBlank first = true)
    (hlead : lead ≠ []) (hblank : allBlank lead = true) (hink : ink x' = ink x)
    (hseam : g = true → startsName x = false) (hseam' : g' = true → startsName x' = false) :
    Laid g g' x x' (listed first lead (items x)) (listed first lead (items x')) := by
  have hall := allBlank_eq_of_ink_eq hink
  rw [items, items, hall]
  cases hx : allBlank x with
  | true =>
    have h := Laid.chunk false hfirst hfblank hink hseam hseam'
    simpa [Chunk.print, hall, hx, listed] using h
  | false =>
    obtain ⟨p, ps, p', ps', hp, hp', hlaid⟩ := laid_pieces (P := fun _ => True) hink hseam hseam'
      (fun _ _ => trivial) (fun _ _ => trivial)
      (fun hq _ _ hs hs' => .chunk true hfirst hfblank hq hs hs')
      (fun hq _ _ => .chunk true hlead hblank hq (absurd · Bool.false_ne_true)
        (absurd · Bool.false_ne_true))
    rw [hp, hp']
    simpa [listed, Chunk.print, List.flatMap_map] using hlaid

end

end SqlRecovery.Sql
