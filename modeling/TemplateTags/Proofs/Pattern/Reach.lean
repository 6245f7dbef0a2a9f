import TemplateTags.Pattern.Matcher
import TemplateTags.Proofs.Text.Cut
/-!
# Matches lie in the text

A cursor reaches another one if the second stands further right in the same text
(`Cursor.Reaches`). Every pattern, with loops or without, ends its matches at
cursors that their start reaches (`Pattern.reaches_of_firstEnd?`), so a block of a
matcher is a piece of the text it was looked for in
(`Matcher.slice?_of_mem_findAll`).
-/

namespace TemplateTags

namespace Cursor

/-- Both cursors are places of one text, and the second is not before the first. -/
def Reaches (c d : Cursor) : Prop :=
  ∃ text, c.rest = text ++ d.rest ∧ d.offset = c.offset + text.size

theorem Reaches.refl (c : Cursor) : c.Reaches c := ⟨[], rfl, rfl⟩

theorem Reaches.trans {c d e : Cursor} (h : c.Reaches d) (h' : d.Reaches e) :
    c.Reaches e := by
  obtain ⟨first, hrest, hoffset⟩ := h
  obtain ⟨second, hrest', hoffset'⟩ := h'
  refine ⟨first ++ second, by rw [hrest, hrest', List.append_assoc], ?_⟩
  rw [hoffset', hoffset, Text.size_append, Nat.add_assoc]

/-- Behind a cursor, the offset tells the place. -/
theorem Reaches.eq_of_offset {c d e : Cursor} (h : c.Reaches d) (h' : c.Reaches e)
    (hoffset : d.offset = e.offset) : d = e := by
  obtain ⟨first, hrest, hd⟩ := h
  obtain ⟨second, hrest', he⟩ := h'
  obtain ⟨-, heq⟩ := Text.append_inj_of_size (hrest.symm.trans hrest') (by omega)
  cases d
  cases e
  simp_all

theorem skip?_eq_some_iff {c d : Cursor} {text : Text} :
    c.skip? text = some d ↔ c.rest = text ++ d.rest ∧
      d.offset = c.offset + text.size := by
  induction text generalizing c with
  | nil =>
    rw [skip?]
    constructor
    · rintro h
      cases h
      exact ⟨rfl, rfl⟩
    · rintro ⟨hrest, hoffset⟩
      cases c
      cases d
      simp_all
  | cons x text ih =>
    obtain ⟨offset, rest⟩ := c
    cases rest with
    | nil => simp [skip?]
    | cons y rest =>
      rw [skip?]
      by_cases hxy : x = y
      · subst hxy
        simp only [if_true, ih, List.cons_append, List.cons.injEq, true_and,
          Text.size_cons, Nat.add_assoc]
      · simp [hxy, Ne.symm hxy]

theorem reaches_of_skip? {c d : Cursor} {text : Text}
    (h : c.skip? text = some d) : c.Reaches d :=
  ⟨text, skip?_eq_some_iff.1 h⟩

theorem skipSet?_eq_some_iff {c d : Cursor} {set : CharSet} :
    c.skipSet? set = some d ↔ ∃ x, set.contains x ∧ c.skip? [x] = some d := by
  unfold skipSet?
  obtain ⟨offset, rest⟩ := c
  cases rest with
  | nil => simp [skip?]
  | cons y rest =>
    simp only [skip?, Option.ite_none_right_eq_some]
    exact ⟨fun h => ⟨y, h.1, rfl, h.2⟩, fun ⟨x, hx, hxy, h⟩ => ⟨hxy ▸ hx, h⟩⟩

theorem reaches_of_skipSet? {c d : Cursor} {set : CharSet}
    (h : c.skipSet? set = some d) :
    c.Reaches d := by
  obtain ⟨x, -, h⟩ := skipSet?_eq_some_iff.1 h
  exact reaches_of_skip? h

theorem mem_of_mem_distinctFrom {seen : List Nat} {cursors : List Cursor}
    {c : Cursor} (h : c ∈ distinctFrom seen cursors) : c ∈ cursors := by
  induction cursors generalizing seen with
  | nil => simp [distinctFrom] at h
  | cons d rest ih =>
    rw [distinctFrom] at h
    split at h
    · exact List.mem_cons_of_mem _ (ih h)
    · rcases List.mem_cons.1 h with rfl | h
      · exact List.mem_cons_self
      · exact List.mem_cons_of_mem _ (ih h)

theorem reaches_of_mem_allFrom {offset : Nat} {text : Text} {c : Cursor}
    (h : c ∈ allFrom offset text) :
    Reaches ⟨offset, text⟩ c := by
  induction text generalizing offset with
  | nil =>
    obtain rfl : c = ⟨offset, []⟩ := by simpa [allFrom] using h
    exact .refl _
  | cons x rest ih =>
    rw [allFrom] at h
    rcases List.mem_cons.1 h with rfl | h
    · exact .refl _
    · exact Reaches.trans ⟨[x], rfl, rfl⟩ (ih h)

end Cursor

namespace Pattern

open Cursor

theorem reaches_of_mem_ends {p : Pattern} {c d : Cursor} (h : d ∈ p.ends c) :
    c.Reaches d := by
  induction p generalizing c d with
  | empty =>
    obtain rfl := List.mem_singleton.1 h
    exact .refl _
  | literal text => exact reaches_of_skip? (Option.mem_toList.1 h)
  | oneOf set => exact reaches_of_skipSet? (Option.mem_toList.1 h)
  | textStart =>
    rw [ends] at h
    split at h
    · obtain rfl := List.mem_singleton.1 h
      exact .refl _
    · cases h
  | textEnd =>
    rw [ends] at h
    split at h
    · obtain rfl := List.mem_singleton.1 h
      exact .refl _
    · cases h
  | seq p q ihp ihq =>
    obtain ⟨e, he, hd⟩ := List.mem_flatMap.1 (mem_of_mem_distinctFrom h)
    exact (ihp he).trans (ihq hd)
  | choice p q ihp ihq =>
    rcases List.mem_append.1 (mem_of_mem_distinctFrom h) with h | h
    · exact ihp h
    · exact ihq h
  | optional p ih =>
    rcases List.mem_append.1 (mem_of_mem_distinctFrom h) with h | h
    · exact ih h
    · obtain rfl := List.mem_singleton.1 h
      exact .refl _
  | star => cases h
  | plus => cases h
  | group _ p ih => exact ih h

namespace Graph

/-- The ends in a row are reached from a cursor. -/
def RowReached (c : Cursor) (row : Row) : Prop :=
  ∀ n d, endBehind? row n = some d → c.Reaches d

theorem reaches_of_endAtOnce? {behind : Row} {c d : Cursor} {s : State}
    (hbehind : ∀ x rest, c.rest = x :: rest →
      RowReached ⟨c.offset + x.utf8Size, rest⟩ behind)
    (h : endAtOnce? behind c s = some d) : c.Reaches d := by
  -- Both reading states go on from the row behind the character they read.
  have hread : ∀ {x : Char} {e : Cursor} {next : Nat}, c.skip? [x] = some e →
      endBehind? behind next = some d → c.Reaches d := by
    intro x e next hskip hend
    obtain ⟨hrest, -⟩ := skip?_eq_some_iff.1 hskip
    have hstep : c.Reaches ⟨c.offset + x.utf8Size, e.rest⟩ := ⟨[x], hrest, rfl⟩
    exact hstep.trans (hbehind x e.rest hrest next d hend)
  cases s with
  | accept =>
    cases h
    exact .refl _
  | char x next =>
    obtain ⟨e, hskip, hend⟩ := Option.bind_eq_some_iff.1 h
    exact hread hskip hend
  | oneOf set next =>
    obtain ⟨e, hskip, hend⟩ := Option.bind_eq_some_iff.1 h
    obtain ⟨x, -, hskip⟩ := skipSet?_eq_some_iff.1 hskip
    exact hread hskip hend
  | textStart next => cases h
  | textEnd next => cases h
  | fork preferred other => cases h

theorem reaches_of_firstEnd? {g : Graph} {behind : Row} {c d : Cursor}
    (hbehind : ∀ x rest, c.rest = x :: rest →
      RowReached ⟨c.offset + x.utf8Size, rest⟩ behind)
    {fuel : Nat} {waiting seen : List Nat}
    (h : firstEnd? g behind c fuel waiting seen = some d) :
    c.Reaches d := by
  induction fuel generalizing waiting seen with
  | zero => cases h
  | succ fuel ih =>
    cases waiting with
    | nil => cases h
    | cons number waiting =>
      rw [firstEnd?] at h
      split at h
      · exact ih h
      · split at h
        · exact ih h
        · rcases Option.or_eq_some_iff.1 h with h | ⟨-, h⟩
          · exact reaches_of_endAtOnce? hbehind h
          · exact ih h

theorem rowReached_rowAt {g : Graph} {behind : Row} {c : Cursor}
    (hbehind : ∀ x rest, c.rest = x :: rest →
      RowReached ⟨c.offset + x.utf8Size, rest⟩ behind) :
    RowReached c (g.rowAt behind c) := by
  intro n d h
  unfold endBehind? rowAt at h
  simp only [Array.getElem?_map, Option.join_eq_some_iff,
    Option.map_eq_some_iff] at h
  obtain ⟨m, -, h⟩ := h
  exact reaches_of_firstEnd? hbehind h

theorem rowReached_rowsFrom {g : Graph} (offset : Nat) (text : Text) :
    ∀ row ∈ (g.rowsFrom offset text).head?, RowReached ⟨offset, text⟩ row := by
  induction text generalizing offset with
  | nil =>
    intro row h
    obtain rfl : g.rowAt #[] ⟨offset, []⟩ = row := by simpa [rowsFrom] using h
    exact rowReached_rowAt fun x rest hrest => by cases hrest
  | cons c text ih =>
    intro row h
    rw [rowsFrom] at h
    simp only [List.head?_cons, Option.mem_some_iff] at h
    subst h
    -- The row of this place goes on from the row of the place behind it.
    refine rowReached_rowAt fun x rest hrest => ?_
    cases hrest
    cases hlater : g.rowsFrom (offset + c.utf8Size) text with
    | nil =>
      intro n d h
      simp [endBehind?] at h
    | cons later rows => exact ih _ later (by rw [hlater]; rfl)

end Graph

/-- Every match ends at or behind its start, in the same text. -/
theorem reaches_of_firstEnd? {p : Pattern} {c d : Cursor}
    (h : p.firstEnd? c = some d) :
    c.Reaches d := by
  unfold firstEnd? endsFrom at h
  split at h
  · cases hrest : c.rest with
    | nil =>
      simp only [hrest, Cursor.allFrom, List.map_cons, List.head?_cons,
        Option.join_some] at h
      have := reaches_of_mem_ends (List.mem_of_mem_head? h)
      rwa [← hrest] at this
    | cons x rest =>
      simp only [hrest, Cursor.allFrom, List.map_cons, List.head?_cons,
        Option.join_some] at h
      have := reaches_of_mem_ends (List.mem_of_mem_head? h)
      rwa [← hrest] at this
  · rw [List.head?_map, Option.join_eq_some_iff, Option.map_eq_some_iff] at h
    obtain ⟨row, hrow, h⟩ := h
    exact Graph.rowReached_rowsFrom c.offset c.rest row hrow _ d h

/-- An occurrence begins and ends in the text. -/
theorem reaches_of_mem_occurrences {p : Pattern} {text : Text} {c d : Cursor}
    (h : (c, d) ∈ p.occurrences text) :
    Cursor.Reaches ⟨0, text⟩ c ∧ c.Reaches d := by
  rw [occurrences_eq] at h
  obtain ⟨e, he, h⟩ := List.mem_filterMap.1 h
  obtain ⟨stop, hstop, heq⟩ := Option.map_eq_some_iff.1 h
  cases heq
  exact ⟨reaches_of_mem_allFrom he, reaches_of_firstEnd? hstop⟩

end Pattern

namespace Matcher

theorem mem_of_mem_scan {m : Matcher} {resume : Nat}
    {places : List (Cursor × Cursor)} {b : Block} (h : b ∈ m.scan resume places) :
    ∃ place ∈ places, b = block place.1 place.2 := by
  induction places generalizing resume with
  | nil => cases h
  | cons place rest ih =>
    rw [scan] at h
    split at h
    · obtain ⟨p, hp, hb⟩ := ih h
      exact ⟨p, List.mem_cons_of_mem _ hp, hb⟩
    · rcases List.mem_cons.1 h with rfl | h
      · exact ⟨place, List.mem_cons_self, rfl⟩
      · obtain ⟨p, hp, hb⟩ := ih h
        exact ⟨p, List.mem_cons_of_mem _ hp, hb⟩

theorem between_eq {start stop : Cursor} {text : Text}
    (hrest : start.rest = text ++ stop.rest)
    (hoffset : stop.offset = start.offset + text.size) :
    between start stop = text := by
  unfold between
  rw [hrest, hoffset, Nat.add_sub_cancel_left, Text.splitFloor_append_size]

/-- A block is the piece of the text at its span. -/
theorem slice?_of_mem_findAll {m : Matcher} {text : Text} {b : Block}
    (h : b ∈ m.findAll text) :
    text.slice? b.span = some b.text := by
  obtain ⟨⟨start, stop⟩, hplace, rfl⟩ := mem_of_mem_scan h
  obtain ⟨⟨before, hbefore, hstart⟩, piece, hpiece, hstop⟩ :=
    Pattern.reaches_of_mem_occurrences hplace
  rw [Text.slice?_eq_some_iff]
  refine ⟨before, stop.rest, ?_, by simpa [block] using hstart.symm, ?_⟩
  · show text = before ++ between start stop ++ stop.rest
    rw [between_eq hpiece hstop, List.append_assoc, ← hpiece, ← hbefore]
  · show before.size + (between start stop).size = stop.offset
    rw [between_eq hpiece hstop]
    simp only at hstart
    omega

end Matcher

end TemplateTags
