import TemplateTags.Proofs.Dialect.Compiled
import TemplateTags.Proofs.Pattern.Search
/-!
# What a dialect's matchers find

An opener that is found is written with one of the left symbols, the closer does
not stand behind it, and no further opener does (`Compiled.of_findLast?`). A
closer that is found is written with one of the right symbols
(`Compiled.of_findFirst?`).
-/

namespace TemplateTags.Dialect

open Text

variable {d : Dialect}

theorem Compiled.openerEnd_some {c e : Cursor} (hd : d.Compiled)
    (h : d.openerMatcher.pattern.firstEnd? c = some e) :
    ∃ s ∈ Addon.ranked .left d.addons, c.rest = d.opener ++ s ++ e.rest ∧
      e.offset = c.offset + (d.opener ++ s).size := by
  rw [hd.openerEnd] at h
  obtain ⟨s, hs, hskip⟩ := List.exists_of_findSome?_eq_some h
  exact ⟨s, hs, Cursor.skip?_eq_some_iff.1 hskip⟩

theorem Compiled.closerEnd_some {c e : Cursor} (hd : d.Compiled)
    (h : d.closerMatcher.pattern.firstEnd? c = some e) :
    ∃ s ∈ Addon.ranked .right d.addons, c.rest = s ++ d.closer ++ e.rest ∧
      e.offset = c.offset + (s ++ d.closer).size := by
  rw [hd.closerEnd] at h
  obtain ⟨s, hs, hskip⟩ := List.exists_of_findSome?_eq_some h
  exact ⟨s, hs, Cursor.skip?_eq_some_iff.1 hskip⟩

/-- Where an opener is written, with or without more symbols behind it, the
opener's pattern matches. -/
theorem Compiled.exists_openerEnd {c : Cursor} {s later : Text} (hd : d.Compiled)
    (hs : s ∈ Addon.ranked .left d.addons)
    (hrest : c.rest = d.opener ++ s ++ later) :
    ∃ e, d.openerMatcher.pattern.firstEnd? c = some e := by
  rw [hd.openerEnd, ← Option.isSome_iff_exists, List.findSome?_isSome_iff]
  have hskip :
      c.skip? (d.opener ++ s) = some ⟨c.offset + (d.opener ++ s).size, later⟩ :=
    Cursor.skip?_eq_some_iff.2 ⟨hrest, rfl⟩
  exact ⟨s, hs, by rw [hskip]; rfl⟩

theorem Compiled.openerEnd_lt {c e : Cursor} (hd : d.Compiled)
    (h : d.openerMatcher.pattern.firstEnd? c = some e) : c.offset < e.offset := by
  obtain ⟨s, -, -, hoffset⟩ := hd.openerEnd_some h
  have := size_pos_iff.2 hd.opener_ne_nil
  rw [hoffset, size_append]
  omega

theorem Compiled.rejects_opener (hd : d.Compiled) (behind : Text) :
    d.openerMatcher.rejects behind = contains d.closer behind := by
  unfold Matcher.rejects
  rw [hd.openerGuard]

/-- Delimiters that are written with symbols of the dialect, not necessarily
those of one variant. -/
structure Written (d : Dialect) (v : Variant) : Prop where
  opener : ∃ s ∈ Addon.ranked .left d.addons, v.opener = d.opener ++ s
  closer : ∃ s ∈ Addon.ranked .right d.addons, v.closer = s ++ d.closer

theorem variantAt_mem (d : Dialect) (i : Nat) : d.variantAt i ∈ d.variants :=
  List.get_mem _ _

theorem written_of_mem_variants {v : Variant} (h : v ∈ d.variants) :
    d.Written v := by
  unfold variants at h
  split at h
  next hnone =>
    rw [List.mem_singleton.1 h]
    have hnil : d.addons = [] := List.isEmpty_iff.1 hnone
    exact ⟨⟨[], Addon.mem_ranked_iff.2 (.inr ⟨hnil, rfl⟩), by simp⟩,
      ⟨[], Addon.mem_ranked_iff.2 (.inr ⟨hnil, rfl⟩), rfl⟩⟩
  next =>
    obtain ⟨a, ha, rfl⟩ := List.mem_map.1 h
    exact ⟨⟨a.left, Addon.mem_ranked_iff.2 (.inl (List.mem_map_of_mem ha)), rfl⟩,
      ⟨a.right, Addon.mem_ranked_iff.2 (.inl (List.mem_map_of_mem ha)), rfl⟩⟩

theorem hasLineBreak_append (a b : Text) :
    hasLineBreak (a ++ b) = (hasLineBreak a || hasLineBreak b) :=
  List.any_append

/-- Nothing in a compiled dialect has a line break in it. -/
theorem Compiled.hasLineBreak_eq_false (hd : d.Compiled) :
    hasLineBreak d.opener = false ∧ hasLineBreak d.closer = false ∧
      ∀ side, ∀ s ∈ Addon.ranked side d.addons, hasLineBreak s = false := by
  have hall := hd.single_line
  unfold multiline? at hall
  simp only [List.find?_eq_none, List.mem_cons, List.mem_flatMap,
    forall_eq_or_imp, Bool.not_eq_true] at hall
  obtain ⟨hopener, hcloser, hsymbols⟩ := hall
  refine ⟨hopener, hcloser, ?_⟩
  intro side s hs
  rcases Addon.mem_ranked_iff.1 hs with hs | ⟨-, rfl⟩
  · obtain ⟨a, ha, rfl⟩ := List.mem_map.1 hs
    cases side with
    | left => exact hsymbols _ ⟨a, ha, .inl rfl⟩
    | right => exact hsymbols _ ⟨a, ha, .inr (.inl rfl)⟩
  · rfl

/-- No delimiter of a compiled dialect has a line break in it. -/
theorem Compiled.not_hasLineBreak (hd : d.Compiled) {v : Variant}
    (hv : d.Written v) :
    hasLineBreak v.opener = false ∧ hasLineBreak v.closer = false := by
  obtain ⟨hopener, hcloser, hsymbol⟩ := hd.hasLineBreak_eq_false
  obtain ⟨⟨s, hs, hopened⟩, t, ht, hclosed⟩ := hv
  rw [hopened, hclosed, hasLineBreak_append, hasLineBreak_append, hopener,
    hcloser, hsymbol _ s hs, hsymbol _ t ht]
  exact ⟨rfl, rfl⟩

theorem Compiled.newline_notMem (hd : d.Compiled) {v : Variant}
    (hv : d.Written v) : '\n' ∉ v.opener := fun h => by
  have hall := (hd.not_hasLineBreak hv).1
  simp only [hasLineBreak, List.any_eq_false] at hall
  exact absurd (hall _ h) (by decide)

theorem Compiled.ne_of_mem_closer (hd : d.Compiled) {v : Variant}
    (hv : d.Written v) {c : Char} (hc : c ∈ v.closer) : c ≠ '\n' ∧ c ≠ '\r' := by
  have hall := (hd.not_hasLineBreak hv).2
  simp only [hasLineBreak, List.any_eq_false] at hall
  simpa using hall c hc

theorem Compiled.written_closer_ne_nil (hd : d.Compiled) {v : Variant}
    (hv : d.Written v) : v.closer ≠ [] := by
  obtain ⟨s, -, hs⟩ := hv.closer
  simp [hs, hd.closer_ne_nil]

/-- A text that ends with a closer does not end in a carriage return. -/
theorem Compiled.getLast?_append_closer_ne (hd : d.Compiled) {v : Variant}
    (hv : d.Written v) (front : Text) :
    (front ++ v.closer).getLast? ≠ some '\r' := by
  obtain ⟨c, hc⟩ :=
    Option.isSome_iff_exists.1 (List.getLast?_isSome.2 (hd.written_closer_ne_nil hv))
  rw [List.getLast?_append, hc, Option.some_or]
  intro hreturn
  exact (hd.ne_of_mem_closer hv (List.mem_of_getLast? hc)).2
    (Option.some.inj hreturn)

/-- The last opener of a text: the closer does not stand behind it, and no opener
does. -/
theorem Compiled.of_findLast? {left : Text} {b : Block} (hd : d.Compiled)
    (h : d.openerMatcher.findLast? left = some b) :
    ∃ before behind, left = before ++ b.text ++ behind ∧ before.size = b.span.start ∧
      b.span.start + b.text.size = b.span.stop ∧
      (∃ s ∈ Addon.ranked .left d.addons, b.text = d.opener ++ s) ∧
        contains d.closer behind = false ∧
      ∀ front later, ∀ s ∈ Addon.ranked .left d.addons,
        left = front ++ (d.opener ++ s) ++ later →
        front.size < b.span.stop := by
  obtain ⟨before, behind, htext, hstart, hstop, hend, hcounts, hlast⟩ :=
    Matcher.exists_of_findLast? (fun c e he => hd.openerEnd_lt he) h
  rw [hd.rejects_opener] at hcounts
  refine ⟨before, behind, htext, hstart, hstop, ?_, hcounts,
    fun front later s hs happ => ?_⟩
  · obtain ⟨s, hs, hrest, -⟩ := hd.openerEnd_some hend
    exact ⟨s, hs, List.append_cancel_right hrest⟩
  · apply Nat.lt_of_not_le
    intro hle
    rw [List.append_assoc] at happ
    obtain ⟨e, he⟩ :=
      hd.exists_openerEnd (c := ⟨front.size, d.opener ++ s ++ later⟩) hs rfl
    have hrejects := hlast front _ e happ hle he
    rw [hd.rejects_opener] at hrejects
    -- What follows the later match also follows the block, and the
    -- closer is not in it.
    have hfront : (before ++ b.text).size ≤ front.size := by
      rw [size_append]
      omega
    obtain ⟨between, -, hbehind⟩ :=
      exists_append_of_size_le (htext.symm.trans happ) hfront
    obtain ⟨t, -, hrest, -⟩ := hd.openerEnd_some he
    have hcontains := contains_append_left (between ++ (d.opener ++ t)) hrejects
    simp only at hrest
    rw [List.append_assoc, ← hrest, ← hbehind, hcounts] at hcontains
    cases hcontains

/-- The first closer of a text is written with a symbol of the dialect. -/
theorem Compiled.of_findFirst? {right : Text} {b : Block} (hd : d.Compiled)
    (h : d.closerMatcher.findFirst? right = some b) :
    ∃ s ∈ Addon.ranked .right d.addons, b.text = s ++ d.closer := by
  obtain ⟨before, rest, e, happ, he, rfl, -⟩ :=
    (Matcher.findFirst?_eq_some_iff hd.closerGuard).1 h
  obtain ⟨s, hs, hrest, hoffset⟩ := hd.closerEnd_some he
  exact ⟨s, hs, Matcher.between_eq hrest hoffset⟩

theorem Compiled.findFirst?_nil (hd : d.Compiled) :
    d.closerMatcher.findFirst? [] = none := by
  cases h : d.closerMatcher.findFirst? [] with
  | none => rfl
  | some b =>
    obtain ⟨before, rest, e, happ, he, -, -⟩ :=
      (Matcher.findFirst?_eq_some_iff hd.closerGuard).1 h
    obtain ⟨s, -, hrest, -⟩ := hd.closerEnd_some he
    obtain ⟨-, rfl⟩ := List.append_eq_nil_iff.1 happ.symm
    obtain ⟨hwritten, -⟩ := List.append_eq_nil_iff.1 hrest.symm
    exact absurd (List.append_eq_nil_iff.1 hwritten).2 hd.closer_ne_nil

end TemplateTags.Dialect
