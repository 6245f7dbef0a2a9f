import TemplateTags.Proofs.Text.Cut
/-!
# Edits as one rewriting

`Edit.Rewrites offset text edits result` says that `result` is `text` with the
spans of all edits replaced at once: what lies between the spans is kept, and the
texts of the edits stand in the order of the list. `text` begins at `offset` of
the document that the edits' offsets count in.

Edits that are applied one by one from the last to the first amount to such a
rewriting (`Rewrites.applyBackward`), and there is one for all edits whose spans
are spans of the text and do not overlap (`exists_rewrites`). The proofs about
positions use only the rewriting: it can be cut between two edits
(`Rewrites.split`) and inside what it keeps (`Rewrites.keep`).
-/

namespace TemplateTags.Edit

open Text

/-- The text with all spans replaced at once. -/
inductive Rewrites : Nat → Text → List Edit → Text → Prop where
  | done (offset : Nat) (text : Text) : Rewrites offset text [] text
  | edit {offset : Nat} {kept removed rest result : Text} {e : Edit}
      {edits : List Edit}
      (start : offset + kept.size = e.span.start)
        (stop : e.span.start + removed.size = e.span.stop)
      (behind : Rewrites e.span.stop rest edits result) :
      Rewrites offset (kept ++ removed ++ rest) (e :: edits)
        (kept ++ e.text ++ result)

/-- The change of length by all edits. -/
def totalDelta : List Edit → Int
  | [] => 0
  | e :: rest => e.delta + totalDelta rest

@[simp] theorem totalDelta_nil : totalDelta [] = 0 := rfl

@[simp] theorem totalDelta_cons (e : Edit) (rest : List Edit) :
    totalDelta (e :: rest) = e.delta + totalDelta rest := rfl

@[simp] theorem totalDelta_append (a b : List Edit) :
    totalDelta (a ++ b) = totalDelta a + totalDelta b := by
  induction a with
  | nil => simp
  | cons e rest ih => simp only [List.cons_append, totalDelta_cons, ih]; omega

/-! ## Spans in order -/

/-- The edits stand in the order of the document, and none begins before the one
in front of it ends. The first one begins at `offset` or later. -/
def Ascending : Nat → List Edit → Prop
  | _, [] => True
  | offset, e :: rest =>
    offset ≤ e.span.start ∧ e.span.start ≤ e.span.stop ∧ Ascending e.span.stop rest

theorem Ascending.le {offset : Nat} {edits : List Edit}
    (h : Ascending offset edits) :
    ∀ e ∈ edits, offset ≤ e.span.start ∧ e.span.start ≤ e.span.stop := by
  induction edits generalizing offset with
  | nil => simp
  | cons a rest ih =>
    obtain ⟨hstart, hstop, hrest⟩ := h
    intro e he
    rcases List.mem_cons.1 he with rfl | he
    · exact ⟨hstart, hstop⟩
    · have := ih hrest e he
      omega

theorem Ascending.mono {offset first : Nat} {edits : List Edit}
    (h : Ascending offset edits) (hle : first ≤ offset) :
    Ascending first edits := by
  cases edits with
  | nil => trivial
  | cons e rest => exact ⟨Nat.le_trans hle h.1, h.2⟩

/-- The check of neighbours looks at all pairs there are. -/
theorem ascending_of_overlap?_eq_none {edits : List Edit}
    (h : overlap? edits = none)
    (hordered : ∀ e ∈ edits, e.span.start ≤ e.span.stop) {offset : Nat}
    (hoffset : ∀ e ∈ edits.head?, offset ≤ e.span.start) :
    Ascending offset edits := by
  induction edits generalizing offset with
  | nil => trivial
  | cons a rest ih =>
    refine ⟨hoffset a rfl, hordered a List.mem_cons_self, ?_⟩
    cases rest with
    | nil => trivial
    | cons b rest =>
      unfold overlap? at h
      split at h
      next => cases h
      next hle =>
        apply ih h fun e he => hordered e (List.mem_cons_of_mem _ he)
        intro e he
        obtain rfl : b = e := by simpa using he
        omega

theorem Ascending.overlap?_eq_none {offset : Nat} {edits : List Edit}
    (h : Ascending offset edits) :
    overlap? edits = none := by
  induction edits generalizing offset with
  | nil => rfl
  | cons a rest ih =>
    obtain ⟨-, -, hrest⟩ := h
    cases rest with
    | nil => rfl
    | cons b rest =>
      unfold overlap?
      rw [if_neg (by have := hrest.1; omega)]
      exact ih hrest

theorem Ascending.right {offset : Nat} {a b : List Edit}
    (h : Ascending offset (a ++ b)) :
    ∀ e ∈ a, ∀ f ∈ b, e.span.stop ≤ f.span.start := by
  induction a generalizing offset with
  | nil => simp
  | cons x rest ih =>
    obtain ⟨-, -, hrest⟩ := h
    intro e he f hf
    rcases List.mem_cons.1 he with rfl | he
    · exact (hrest.le f (List.mem_append_right _ hf)).1
    · exact ih hrest e he f hf

theorem Ascending.pairwise {offset : Nat} {edits : List Edit}
    (h : Ascending offset edits) :
    edits.Pairwise fun e f => e.span.stop ≤ f.span.start := by
  induction edits generalizing offset with
  | nil => exact .nil
  | cons e rest ih =>
    obtain ⟨-, -, hrest⟩ := h
    exact List.pairwise_cons.2 ⟨fun f hf => (hrest.le f hf).1, ih hrest⟩

/-! ## The rewriting by edits in order -/

/-- Edits in order whose spans are spans of the document make a rewriting of what
lies behind `offset`. -/
theorem exists_rewrites (before : Text) {text : Text} {edits : List Edit}
    (h : Ascending before.size edits)
    (hspan : ∀ e ∈ edits, (before ++ text).HasSpan e.span) :
    ∃ result, Rewrites before.size text edits result := by
  induction edits generalizing before text with
  | nil => exact ⟨text, .done _ _⟩
  | cons e rest ih =>
    obtain ⟨hstart, -, hrest⟩ := h
    obtain ⟨front, removed, behind, happ, hfront, hstop⟩ :=
      (hspan e List.mem_cons_self).exists_append
    rw [List.append_assoc] at happ
    obtain ⟨kept, rfl, rfl⟩ := exists_append_of_size_le happ (by omega)
    -- What lies between the edit before and this one is kept.
    have hsize : (before ++ kept ++ removed).size = e.span.stop := by
      simp only [size_append] at hfront hstop ⊢
      omega
    obtain ⟨result, hresult⟩ :
        ∃ result, Rewrites e.span.stop behind rest result := by
      rw [← hsize] at hrest ⊢
      apply ih _ hrest
      intro f hf
      simpa using hspan f (List.mem_cons_of_mem _ hf)
    rw [← List.append_assoc]
    rw [size_append] at hfront
    exact ⟨kept ++ e.text ++ result,
      .edit hfront (by rw [size_append] at hstop; omega) hresult⟩

/-- One edit in the middle of a text. -/
theorem applyTo_append {e : Edit} {before removed : Text}
    (hstart : before.size = e.span.start)
    (hstop : e.span.start + removed.size = e.span.stop) (behind : Text) :
    e.applyTo (before ++ removed ++ behind) = .ok (before ++ e.text ++ behind) := by
  unfold applyTo isInsertion Span.isEmpty
  split
  next h =>
    have hzero : removed = [] :=
      size_eq_zero_iff.1 (by have := of_decide_eq_true h; omega)
    subst hzero
    unfold insertAt
    rw [List.append_nil, ← hstart, cut_append]
    rfl
  next h =>
    have hright : (before ++ removed ++ behind).cut e.span.stop =
        .ok (before ++ removed, behind) :=
      cut_eq_ok_iff.2 ⟨rfl, by rw [size_append]; omega⟩
    have hleft : (before ++ removed ++ behind).cut e.span.start =
        .ok (before, removed ++ behind) :=
      cut_eq_ok_iff.2 ⟨by simp, hstart⟩
    unfold replaceSpan
    rw [hleft, hright]
    simp only [bind, Except.bind]
    rw [if_neg (by omega)]
    rfl

/-- Edits applied one by one, the last one first, amount to the rewriting, and
none of them fails. -/
theorem Rewrites.applyBackward {offset : Nat} {text result : Text}
    {edits : List Edit} (h : Rewrites offset text edits result) {before : Text}
    (hbefore : before.size = offset) :
    Edit.applyBackward edits (before ++ text) = (before ++ result, none) := by
  induction h generalizing before with
  | done => rfl
  | @edit offset kept removed rest result e edits hstart hstop _ ih =>
    have hsize : (before ++ kept ++ removed).size = e.span.stop := by
      simp only [size_append]
      omega
    -- The edits behind this one are applied first, and leave alone what
    -- stands in front of them.
    have hrest := ih hsize
    simp only [List.append_assoc] at hrest ⊢
    rw [Edit.applyBackward, hrest]
    have hone := applyTo_append (show (before ++ kept).size = e.span.start by
      rw [size_append]; omega) hstop result
    simp only [List.append_assoc] at hone
    simp only [hone]

theorem Rewrites.size_eq {offset : Nat} {text result : Text} {edits : List Edit}
    (h : Rewrites offset text edits result) :
    (result.size : Int) = text.size + totalDelta edits := by
  induction h with
  | done => simp
  | edit hstart hstop _ ih =>
    simp only [size_append, totalDelta_cons, delta, Span.length]
    omega

theorem Rewrites.ascending {offset : Nat} {text result : Text} {edits : List Edit}
    (h : Rewrites offset text edits result) : Ascending offset edits := by
  induction h with
  | done => trivial
  | edit hstart hstop _ ih => exact ⟨by omega, by omega, ih⟩

/-- Edits that rewrite what stands behind `before` are applied without an error,
and leave alone what stands before. -/
theorem Rewrites.applyAll_append {offset : Nat} {text result : Text}
    {edits : List Edit} (h : Rewrites offset text edits result) {before : Text}
    (hbefore : before.size = offset) :
    Edit.applyAll edits (before ++ text) = (before ++ result, none) := by
  unfold Edit.applyAll
  rw [h.ascending.overlap?_eq_none]
  exact h.applyBackward hbefore

theorem Rewrites.applyAll_eq {text result : Text} {edits : List Edit}
    (h : Rewrites 0 text edits result) :
    Edit.applyAll edits text = (result, none) :=
  h.applyAll_append size_nil

/-! ## Cutting a rewriting -/

/-- Where the last of some edits ends, or `offset` without any. -/
def endOf : Nat → List Edit → Nat
  | offset, [] => offset
  | _, e :: rest => endOf e.span.stop rest

@[simp] theorem endOf_append_singleton (offset : Nat) (edits : List Edit)
    (e : Edit) :
    endOf offset (edits ++ [e]) = e.span.stop := by
  induction edits generalizing offset with
  | nil => rfl
  | cons a rest ih => exact ih a.span.stop

/-- A rewriting can be cut between two of its edits, at the end of the
first one's span. -/
theorem Rewrites.split {offset : Nat} {text result : Text} {first second : List Edit}
    (h : Rewrites offset text (first ++ second) result) :
    ∃ front rest frontResult restResult, text = front ++ rest ∧
      result = frontResult ++ restResult ∧
      offset + front.size = endOf offset first ∧
        Rewrites offset front first frontResult ∧
      Rewrites (endOf offset first) rest second restResult := by
  induction first generalizing offset text result with
  | nil => exact ⟨[], text, [], result, rfl, rfl, rfl, .done _ _, h⟩
  | cons e rest ih =>
    rw [List.cons_append] at h
    cases h with
    | @edit _ kept removed tail tailResult _ _ hstart hstop hbehind =>
      obtain ⟨front, back, frontResult, backResult, rfl, rfl, hsize, hfront,
          hback⟩ := ih hbehind
      refine ⟨kept ++ removed ++ front, back, kept ++ e.text ++ frontResult,
        backResult, by simp,
        by simp, ?_, .edit hstart hstop hfront, hback⟩
      show _ = endOf e.span.stop rest
      rw [← hsize]
      simp only [size_append]
      omega

/-- What lies before the first edit is kept. -/
theorem Rewrites.keep {offset : Nat} {kept rest result : Text} {edits : List Edit}
    (h : Rewrites offset (kept ++ rest) edits result)
    (hfirst : ∀ e ∈ edits.head?, offset + kept.size ≤ e.span.start) :
    ∃ restResult, result = kept ++ restResult ∧
      Rewrites (offset + kept.size) rest edits restResult := by
  generalize htext : kept ++ rest = text at h
  cases h with
  | done => exact ⟨rest, htext.symm, .done _ _⟩
  | @edit _ kept' removed tail tailResult e edits hstart hstop hbehind =>
    have hle := hfirst e rfl
    rw [List.append_assoc] at htext
    obtain ⟨between, rfl, rfl⟩ := exists_append_of_size_le htext (by omega)
    rw [size_append] at hstart
    refine ⟨between ++ e.text ++ tailResult, by simp, ?_⟩
    rw [← List.append_assoc]
    exact .edit (by omega) hstop hbehind

/-! ## Rewritings side by side -/

/-- The edit `offset` bytes further right. -/
def moveRight (e : Edit) (offset : Nat) : Edit :=
  { e with span := e.span.moveRight offset }

@[simp] theorem delta_moveRight (e : Edit) (offset : Nat) :
    (e.moveRight offset).delta = e.delta := by
  simp only [delta, moveRight, Span.moveRight, Span.length]
  omega

/-- The same rewriting of a text that stands further right. -/
theorem Rewrites.moveRight {offset : Nat} {text result : Text} {edits : List Edit}
    (h : Rewrites offset text edits result) (distance : Nat) :
    Rewrites (offset + distance) text (edits.map (·.moveRight distance)) result := by
  induction h with
  | done => exact .done _ _
  | @edit offset kept removed rest result e edits hstart hstop _ ih =>
    have hstart' :
        offset + distance + kept.size = (e.moveRight distance).span.start := by
      show _ = e.span.start + distance
      omega
    have hstop' : (e.moveRight distance).span.start + removed.size =
        (e.moveRight distance).span.stop := by
      show e.span.start + distance + _ = e.span.stop + distance
      omega
    exact .edit hstart' hstop' ih

/-- The same rewriting with a text in front that is kept. -/
theorem Rewrites.prepend {offset : Nat} {text result : Text} {edits : List Edit}
    (kept : Text) (h : Rewrites (offset + kept.size) text edits result) :
    Rewrites offset (kept ++ text) edits (kept ++ result) := by
  cases h with
  | done => exact .done _ _
  | @edit _ between removed rest result e edits hstart hstop hbehind =>
    have hstart' : offset + (kept ++ between).size = e.span.start := by
      rw [size_append]
      omega
    have := Rewrites.edit hstart' hstop hbehind
    simpa only [List.append_assoc] using this

/-- The rewritings of two neighbouring texts are one rewriting. -/
theorem Rewrites.append {offset : Nat} {text text' result result' : Text}
    {first second : List Edit} (h : Rewrites offset text first result)
    (h' : Rewrites (offset + text.size) text' second result') :
    Rewrites offset (text ++ text') (first ++ second) (result ++ result') := by
  induction h with
  | done => exact h'.prepend _
  | @edit offset kept removed rest result e edits hstart hstop _ ih =>
    have hoffset :
        offset + (kept ++ removed ++ rest).size = e.span.stop + rest.size := by
      simp only [size_append]
      omega
    have := Rewrites.edit hstart hstop (ih (hoffset ▸ h'))
    simpa only [List.append_assoc, List.cons_append] using this

end TemplateTags.Edit
