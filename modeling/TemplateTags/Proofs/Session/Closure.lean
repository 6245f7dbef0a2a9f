import TemplateTags.Proofs.Cycle.Context
import TemplateTags.Proofs.Dialect.Families
import TemplateTags.Proofs.Dialect.Rotation
/-!
# Going around the cycle of variants

As many actions as a built-in dialect has variants lead a tag through all of them
and back to where it was, with the same text around it and in it, if no variant
takes in what stands next to its delimiters (`Session.cycleTimes_write`). Where
one does, the action that reads it back replaces a delimiter that was never
written, and the cycle does not close (`TagContext.separated_of_steps`).
-/

namespace TemplateTags

open Text

namespace Family

/-- The variants of a family differ, so the one after each is known. -/
theorem next_variantAt (f : Family) (i : Nat) :
    f.dialect.next (f.dialect.variantAt i).opener (f.dialect.variantAt i).closer =
      f.dialect.variantAt (i + 1) := by
  have hnodup : f.dialect.addons.Nodup := by cases f <;> decide
  have hfollowing := (Dialect.rotates_of_nodup hnodup).following_variantAt_mod i
  rwa [Dialect.variantAt_congr (Nat.mod_mod i _),
    Dialect.variantAt_congr (Nat.mod_mod (i + 1) _)] at hfollowing

end Family

namespace TagContext

variable {f : Family} {t : TagContext} {s : Session} {index : Nat}

/-- Where nothing is taken in, a tag that is found is found as every variant. -/
theorem Reads.of_separated {v w : Variant} (h : t.Reads f.dialect v)
    (hv : v ∈ f.dialect.variants) (hw : w ∈ f.dialect.variants)
    (hseparated : f.Separated t.left t.right) : t.Reads f.dialect w := by
  obtain ⟨hleft, hright, hopener, hcloser⟩ :=
    (reads_iff f.compiled (Dialect.written_of_mem_variants hv)).1 h
  exact (reads_iff f.compiled (Dialect.written_of_mem_variants hw)).2
    ⟨hleft, hright, Family.readsOpener_of_separated hv hw hseparated.1 hopener,
      Family.readsCloser_of_separated hv hw hseparated.2 hcloser⟩

/-- The next variant of a family is written, whatever variant the
session is to insert. -/
theorem Reads.cycle_family {v : Variant} (h : t.Reads f.dialect v)
    (hactive : s.active = f.dialect.withInsertVariant index) :
    s.cycle (t.write v) = (t.write (f.dialect.next v.opener v.closer), none) := by
  have hreads : t.Reads s.active v := hactive ▸ h
  rw [hreads.cycle, hactive]
  rfl

/-- Two contexts with the same text in front of and between opener and selection
are written alike by the same openers only. -/
theorem opener_of_write_eq (t t' : TagContext) {u w : Variant} {symbol : Text}
    (hbefore : t.before = t'.before) (hleft : t.left = symbol ++ t'.left)
    (h : t'.write u = t.write w) : u.opener = w.opener ++ symbol := by
  have hstart : (t'.selection u).start = (t.selection w).start :=
    congrArg (fun b => (b.selections.headD ⟨0, 0⟩).start) h
  have htext : t'.text u = t.text w := congrArg Buffer.text h
  simp only [selection, hbefore, hleft, size_append] at hstart
  have happ : t'.before ++
      (u.opener ++ (t'.left ++ t'.selected ++ (t'.right ++ u.closer ++ t'.behind))) =
      t'.before ++ (w.opener ++ symbol
        ++ (t'.left ++ t.selected ++ (t.right ++ w.closer ++ t.behind))) := by
    simpa [TagContext.text, hbefore, hleft] using htext
  exact (append_inj_of_size (List.append_cancel_left happ)
    (by rw [size_append]; omega)).1

end TagContext

/-! ## Delimiters that take something in -/

namespace Family

/-- ERB and PHP have a variant with the bare opener whose closer is read wherever
another closer was. The variant that is taken for it where its opener takes in a
symbol is followed by another one than it is. -/
theorem exists_bare {f : Family} (hf : f = erb ∨ f = php) : ∃ i,
    (f.dialect.variantAt i).opener = f.dialect.opener ∧
      (∀ symbol ∈ f.joining .left, symbol ∈ Addon.ranked .left f.dialect.addons ∧
        (f.dialect.next (f.dialect.opener ++ symbol)
          (f.dialect.variantAt i).closer).opener ≠
          (f.dialect.variantAt (i + 1)).opener ++ symbol) ∧
      ∀ right behind, ∀ v ∈ f.dialect.variants,
        Dialect.ReadsCloser f.dialect right v.closer behind →
        Dialect.ReadsCloser f.dialect right (f.dialect.variantAt i).closer
          behind := by
  rcases hf with rfl | rfl
  · refine ⟨5, rfl, by decide, fun right behind v _ h => ?_⟩
    exact readsCloser_erb (s := ['-']) (by decide) (by simp)
      (h.unclosed erb.compiled)
  · refine ⟨0, rfl, by decide, fun right behind v hv h => ?_⟩
    have hone : ∀ u ∈ php.dialect.variants,
        u.closer = (php.dialect.variantAt 0).closer := by decide
    exact hone v hv ▸ h

end Family

namespace TagContext

section Steps

variable {f : Family} {t : TagContext} {s : Session} {index m : Nat}
  (hreads : t.Reads f.dialect (f.dialect.variantAt m))
  (hactive : s.active = f.dialect.withInsertVariant index)
  (hsteps : ∀ i, s.cycle (t.write (f.dialect.variantAt i)) =
    (t.write (f.dialect.variantAt (i + 1)), none))

include hreads hactive hsteps

/-- Where every action writes the next variant, the openers of ERB and
PHP take nothing in. -/
theorem not_prefix_of_steps (hf : f = .erb ∨ f = .php) :
    ∀ symbol ∈ f.joining .left, ¬ symbol <+: t.left := by
  rintro symbol hsymbol ⟨left, hleft⟩
  obtain ⟨i, hbare, hsymbols, hclosers⟩ := Family.exists_bare hf
  obtain ⟨hranked, hnext⟩ := hsymbols symbol hsymbol
  obtain ⟨hnoleft, hnoright, hopener, hcloser⟩ :=
    (reads_iff f.compiled (Dialect.written_of_mem_variants
      (f.dialect.variantAt_mem m))).1 hreads
  rw [← hleft] at hopener hnoleft
  have hne : symbol ≠ [] := by
    rcases hf with rfl | rfl <;> rintro rfl <;> revert hsymbol <;> decide
  -- The text in which the bare opener takes in the symbol is one with the
  -- longer opener in it.
  have hwrite : ({ t with left } : TagContext).write
      ⟨f.dialect.opener ++ symbol, (f.dialect.variantAt i).closer⟩ =
        t.write (f.dialect.variantAt i) := by
    simp only [write, text, selection, hbare, ← hleft, List.append_assoc]
  have hreads' : ({ t with left } : TagContext).Reads f.dialect
      ⟨f.dialect.opener ++ symbol, (f.dialect.variantAt i).closer⟩ := by
    have hwritten : f.dialect.Written ⟨f.dialect.opener ++ symbol,
        (f.dialect.variantAt i).closer⟩ :=
      ⟨⟨symbol, hranked, rfl⟩,
        (Dialect.written_of_mem_variants (f.dialect.variantAt_mem i)).closer⟩
    refine (reads_iff f.compiled hwritten).2 ⟨?_, hnoright, ?_, ?_⟩
    · exact fun hmem => hnoleft (List.mem_append_right _ hmem)
    · exact Family.readsOpener_of_bare hf symbol hranked
        (fun hnil => absurd hnil hne) hopener
    · exact hclosers _ _ _ (f.dialect.variantAt_mem m) hcloser
  have hcycle := hreads'.cycle_family hactive
  rw [hwrite, hsteps i] at hcycle
  exact hnext (opener_of_write_eq t { t with left } rfl hleft.symm
    (congrArg Prod.fst hcycle).symm)

/-- Where every action writes the next variant and its opener takes nothing in,
neither does ERB's closer. -/
theorem not_suffix_of_steps_erb (hf : f = .erb)
    (hleft : ∀ symbol ∈ f.joining .left, ¬ symbol <+: t.left) :
    ∀ symbol ∈ f.joining .right, ¬ symbol <:+ t.right := by
  subst hf
  rintro symbol hsymbol ⟨right, hright⟩
  obtain rfl : symbol = ['-'] := List.mem_singleton.1 hsymbol
  obtain ⟨hnoleft, hnoright, hopener, hcloser⟩ :=
    (reads_iff Family.erb.compiled (Dialect.written_of_mem_variants
      (Family.erb.dialect.variantAt_mem m))).1 hreads
  have hunclosed := hcloser.unclosed Family.erb.compiled
  rw [← hright] at hunclosed hnoright
  have hwrite : ({ t with right } : TagContext).write ⟨['<', '%'], ['-', '%', '>']⟩ =
      t.write (Family.erb.dialect.variantAt 0) := by
    have hvariant : Family.erb.dialect.variantAt 0 = ⟨['<', '%'], ['%', '>']⟩ := rfl
    simp [write, text, selection, hvariant, ← hright]
  have hreads' : ({ t with right } : TagContext).Reads Family.erb.dialect
      ⟨['<', '%'], ['-', '%', '>']⟩ := by
    refine (reads_iff Family.erb.compiled ⟨⟨[], by decide, rfl⟩,
      ⟨['-'], by decide, rfl⟩⟩).2
      ⟨hnoleft, fun hmem => hnoright (List.mem_append_left _ hmem), ?_, ?_⟩
    · have hbare :=
        Family.readsOpener_of_separated (Family.erb.dialect.variantAt_mem m)
        (Family.erb.dialect.variantAt_mem 0) hleft hopener
      exact hbare
    · exact Family.readsCloser_erb (s := ['-']) (by decide) (by simp) hunclosed.left
  have hcycle := hreads'.cycle_family hactive
  rw [hwrite, hsteps 0] at hcycle
  have hopeners :=
    opener_of_write_eq t { t with right } rfl (List.nil_append t.left).symm
    (congrArg Prod.fst hcycle).symm
  revert hopeners
  decide

/-- Where every action writes the next variant, the closers of Jinja take nothing
in. -/
theorem not_suffix_of_steps_bracePercent (hf : f = .bracePercent) :
    ∀ symbol ∈ f.joining .right, ¬ symbol <:+ t.right := by
  subst hf
  rintro symbol hsymbol ⟨right, hright⟩
  obtain ⟨c, hc, rfl⟩ : ∃ c ∈ ['%', '}'], symbol = [c] := by
    simpa [Family.joining] using hsymbol
  obtain ⟨hnoleft, hnoright, hopener, hcloser⟩ :=
    (reads_iff Family.bracePercent.compiled
    (Dialect.written_of_mem_variants
      (Family.bracePercent.dialect.variantAt_mem m))).1 hreads
  have hunclosed := hcloser.unclosed Family.bracePercent.compiled
  rw [← hright] at hunclosed hnoright
  have hwrite : (TagContext.mk t.before t.left t.selected right
      ('}' :: t.behind)).write ⟨['{', '{'], [c, '}']⟩ =
      t.write (Family.bracePercent.dialect.variantAt 1) := by
    have hvariant :
        Family.bracePercent.dialect.variantAt 1 = ⟨['{', '{'], ['}', '}']⟩ := rfl
    simp [write, text, selection, hvariant, ← hright]
  have hreads' :
      (TagContext.mk t.before t.left t.selected right ('}' :: t.behind)).Reads
      Family.bracePercent.dialect ⟨['{', '{'], [c, '}']⟩ := by
    have hranked : [c] ∈ Addon.ranked .right Family.bracePercent.dialect.addons := by
      simp only [List.mem_cons, List.not_mem_nil, or_false] at hc
      rcases hc with rfl | rfl <;> decide
    refine (reads_iff Family.bracePercent.compiled ⟨⟨['{'], by decide, rfl⟩,
      ⟨[c], hranked, rfl⟩⟩).2
      ⟨hnoleft, fun hmem => hnoright (List.mem_append_left _ hmem), ?_, ?_⟩
    · have hbraces := Family.readsOpener_of_separated (f := .bracePercent)
        (Family.bracePercent.dialect.variantAt_mem m)
          (Family.bracePercent.dialect.variantAt_mem 1)
        (by simp [Family.joining]) hopener
      exact hbraces
    · refine Family.readsCloser_bracePercent hc ?_ hunclosed.left
      rintro symbol hjoining ⟨front, rfl⟩ rfl
      exact hunclosed front [] symbol hjoining (by
        simp [show Family.bracePercent.dialect.closer = ['}'] from rfl])
  have hcycle := hreads'.cycle_family hactive
  rw [hwrite, hsteps 1] at hcycle
  have hnext : Family.bracePercent.dialect.next ['{', '{'] [c, '}'] =
      ⟨['{', '%'], ['%', '}']⟩ := by
    simp only [List.mem_cons, List.not_mem_nil, or_false] at hc
    rcases hc with rfl | rfl <;> decide
  -- The brace that was left over stands where the first half of the
  -- closer should stand.
  have htext := congrArg (fun b => b.1.text) hcycle
  have hvariant :
      Family.bracePercent.dialect.variantAt 2 = ⟨['{', '%'], ['%', '}']⟩ := rfl
  rw [hnext, hvariant] at htext
  simp [write, text, ← hright] at htext

/-- Where every action writes the next variant, nothing is taken in. -/
theorem separated_of_steps : f.Separated t.left t.right := by
  cases f with
  | erb =>
    have hleft := not_prefix_of_steps hreads hactive hsteps (.inl rfl)
    exact ⟨hleft, not_suffix_of_steps_erb hreads hactive hsteps rfl hleft⟩
  | mustache => exact ⟨by simp [Family.joining], by simp [Family.joining]⟩
  | bracePercent =>
    exact ⟨by simp [Family.joining],
      not_suffix_of_steps_bracePercent hreads hactive hsteps rfl⟩
  | php =>
    exact ⟨not_prefix_of_steps hreads hactive hsteps (.inr rfl), by
      simp [Family.joining]⟩

end Steps

end TagContext

/-! ## The cycle -/

namespace Session

/-- A buffer after several actions. One that fails is the last. -/
def cycleTimes (s : Session) (b : Buffer) : Nat → Buffer × Option EditError
  | 0 => (b, none)
  | k + 1 =>
    match s.cycleTimes b k with
    | (after, none) => s.cycle after
    | (after, some error) => (after, some error)

variable {f : Family} {t : TagContext} {s : Session} {index m : Nat}

/-- Where nothing is taken in, each action writes the next variant. -/
theorem cycleTimes_write (hreads : t.Reads f.dialect (f.dialect.variantAt m))
    (hactive : s.active = f.dialect.withInsertVariant index)
    (hseparated : f.Separated t.left t.right) (k : Nat) :
    s.cycleTimes (t.write (f.dialect.variantAt m)) k =
      (t.write (f.dialect.variantAt (m + k)), none) := by
  induction k with
  | zero => rfl
  | succ k ih =>
    have hread := hreads.of_separated (f.dialect.variantAt_mem m)
      (f.dialect.variantAt_mem (m + k)) hseparated
    rw [cycleTimes, ih]
    simp only
    rw [hread.cycle_family hactive, f.next_variantAt, Nat.add_assoc]

/-- A run through the whole cycle passes each variant. -/
theorem cycle_of_cycleTimes (hm : m < f.dialect.variants.length)
    (hrun : ∀ k ≤ f.dialect.variants.length,
      s.cycleTimes (t.write (f.dialect.variantAt m)) k =
        (t.write (f.dialect.variantAt (m + k)), none))
    (i : Nat) :
    s.cycle (t.write (f.dialect.variantAt i)) =
      (t.write (f.dialect.variantAt (i + 1)), none) := by
  obtain ⟨k, hk, hmod⟩ : ∃ k < f.dialect.variants.length,
      (m + k) % f.dialect.variants.length = i % f.dialect.variants.length := by
    -- Beginning at `m`, the run comes to each index before it has gone around.
    refine ⟨(i % f.dialect.variants.length + f.dialect.variants.length - m) %
      f.dialect.variants.length,
      Nat.mod_lt _ f.dialect.length_variants_pos, ?_⟩
    rw [Nat.add_mod_mod, Nat.add_sub_cancel' (by omega), Nat.add_mod_right,
      Nat.mod_mod]
  have hhere : f.dialect.variantAt (m + k) = f.dialect.variantAt i :=
    Dialect.variantAt_congr hmod
  have hnext : f.dialect.variantAt (m + (k + 1)) = f.dialect.variantAt (i + 1) := by
    rw [← f.next_variantAt i, ← hhere, f.next_variantAt, Nat.add_assoc]
  have hstep := hrun (k + 1) hk
  rw [cycleTimes, hrun k (Nat.le_of_lt hk)] at hstep
  simp only at hstep
  rwa [hhere, hnext] at hstep

/-- A tag of a built-in dialect goes through all variants and back to the text and
the selection it was found with, each time around the same content, if and only if
no variant takes in what stands next to its delimiters. -/
theorem cycle_closure_iff (f : Family) (index : Nat) (s : Session)
    (hactive : s.active = f.dialect.withInsertVariant index) {text : Text}
    {selection : Span} (hselection : text.HasSpan selection)
    {opener closer : Block}
    (hpair : (Surroundings.find s.active (text.region selection) selection).pair? =
      some (opener, closer))
    {m : Nat} (hknown : s.active.variantIndex? opener.text closer.text = some m) :
    let t := TagContext.around text selection opener closer
    let n := s.active.variants.length
    t.write ⟨opener.text, closer.text⟩ = ⟨text, [selection]⟩ ∧
      (((∀ k ≤ n, s.cycleTimes ⟨text, [selection]⟩ k =
        (t.write (s.active.variantAt (m + k)), none)) ∧
          s.cycleTimes ⟨text, [selection]⟩ n = (⟨text, [selection]⟩, none)) ↔
        f.Separated t.left t.right) := by
  intro t n
  have hn : n = f.dialect.variants.length := by
    show s.active.variants.length = _
    rw [hactive]
    rfl
  have hvariantAt : ∀ i, s.active.variantAt i = f.dialect.variantAt i := fun i => by
    rw [hactive]
    rfl
  obtain ⟨hm, hfirst⟩ := s.active.of_variantIndex? hknown
  have hlength : m < n := hm
  rw [hn] at hlength
  rw [hvariantAt] at hfirst
  -- Which variant is to be inserted makes no difference to what is found.
  have hfound :
      (Surroundings.find f.dialect (text.region selection) selection).pair? =
        some (opener, closer) := by
    rw [hactive] at hpair
    exact hpair
  obtain ⟨hwrite, hreads⟩ :
      t.write ⟨opener.text, closer.text⟩ = ⟨text, [selection]⟩ ∧
      t.Reads f.dialect ⟨opener.text, closer.text⟩ :=
        TagContext.write_around hselection hfound
  rw [← hfirst] at hreads
  refine ⟨hwrite, ?_⟩
  rw [← hwrite, ← hfirst, hn]
  simp only [hvariantAt]
  constructor
  · rintro ⟨hrun, -⟩
    exact TagContext.separated_of_steps hreads hactive
      (cycle_of_cycleTimes hlength hrun)
  · intro hseparated
    refine ⟨fun k _ => cycleTimes_write hreads hactive hseparated k, ?_⟩
    rw [cycleTimes_write hreads hactive hseparated,
      Dialect.variantAt_congr (Nat.add_mod_right m f.dialect.variants.length)]

/-- A tag with a blank on both sides of its content takes nothing in, and six
actions give it back. -/
theorem cycle_closure_blanks :
    (start .builtin).cycleTimes ⟨"<% é %>".toList, [⟨3, 5⟩]⟩ 6 =
      (⟨"<% é %>".toList, [⟨3, 5⟩]⟩, none) := by
  have hselection : Text.HasSpan "<% é %>".toList ⟨3, 5⟩ := by decide
  have hpair : (Surroundings.find (start .builtin).active
      (Text.region "<% é %>".toList ⟨3, 5⟩) ⟨3, 5⟩).pair? =
      some (⟨⟨0, 2⟩, ['<', '%']⟩, ⟨⟨6, 8⟩, ['%', '>']⟩) := by decide
  have hknown : (start .builtin).active.variantIndex? ['<', '%'] ['%', '>'] =
      some 0 := by decide
  exact ((cycle_closure_iff .erb 0 (start .builtin) rfl hselection hpair hknown).2.2
    (by decide)).2

/-- The equals sign behind an opener that has one itself is taken in by the bare
opener. The action after it replaces both, and six actions leave a text that is
shorter by the sign. -/
theorem not_cycle_closure_equals_sign :
    let b : Buffer := ⟨"<%== a %>".toList, [⟨5, 6⟩]⟩
    let s := start .builtin
    let found := Surroundings.find s.active (b.text.region ⟨5, 6⟩) ⟨5, 6⟩
    b.Checked ∧ s.active = Family.erb.dialect ∧
      found.pair? = some (⟨⟨0, 3⟩, ['<', '%', '=']⟩, ⟨⟨7, 9⟩, ['%', '>']⟩) ∧
      s.active.variantIndex? ['<', '%', '='] ['%', '>'] = some 1 ∧
        s.active.variants.length = 6 ∧
      s.cycleTimes b 6 = (⟨"<% a %>".toList, [⟨3, 4⟩]⟩, none) ∧
        s.cycleTimes b 6 ≠ (b, none) :=
  ⟨by decide, rfl, by decide, by decide, by decide, by decide, by decide⟩

end Session

end TemplateTags
