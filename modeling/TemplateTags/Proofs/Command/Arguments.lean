import TemplateTags.Command.Invocation
/-!
# The same arguments with another selection

Arguments are read one after another, and what each of them adds to what was given
depends on the names of the options given so far and on the number of other
arguments only (`Adds`). So the value of one option makes no difference to what
the arguments behind it come to, and a command line with another selection in it
is the same request with that selection (`Invocation.ofArguments_selection`).
-/

namespace TemplateTags.Command

/-! ## What arguments add -/

namespace Given

/-- What was given first and what was given then. -/
def append (g new : Given) : Given :=
  ⟨g.options ++ new.options, g.others ++ new.others⟩

/-- The names of the options and the number of other arguments. -/
def shape (g : Given) : List OptionName × Nat :=
  (g.options.map Prod.fst, g.others.length)

theorem append_assoc (g first second : Given) :
    (g.append first).append second = g.append (first.append second) := by
  simp [append]

theorem append_nothing (g : Given) :
    g.append nothing = g := by simp [append, nothing]

theorem shape_append (g new : Given) :
    (g.append new).shape = (g.shape.1 ++ new.shape.1, g.shape.2 + new.shape.2) := by
  simp [append, shape]

theorem has_eq (g : Given) (name : OptionName) :
    g.has name = g.shape.1.any (· == name) := by
  unfold has shape
  rw [List.any_map]
  rfl

end Given

/-- Something is added to what was given, and it is the same for all that has the
same names and numbers. -/
def Adds {α : Type} (f : Given → Except Stop (Given × α)) : Prop :=
  ∀ g k a, f g = .ok (k, a) → ∃ new, k = g.append new ∧
    ∀ g' : Given, g'.shape = g.shape → f g' = .ok (g'.append new, a)

theorem adds_ok {α : Type} (a : α) : Adds fun g => .ok (g, a) := by
  intro g k a' h
  cases h
  exact ⟨.nothing, (g.append_nothing).symm, fun g' _ => by rw [g'.append_nothing]⟩

theorem adds_error {α : Type} (stop : Stop) :
    Adds (fun _ => .error stop : Given → Except Stop (Given × α)) :=
  fun _ _ _ h => nomatch h

theorem Adds.bind {α β : Type} {f : Given → Except Stop (Given × α)}
    {next : α → Given → Except Stop (Given × β)} (hf : Adds f)
    (hnext : ∀ a, Adds (next a)) :
    Adds fun g => (f g).bind fun given => next given.2 given.1 := by
  intro g k b h
  cases hfirst : f g with
  | error stop => simp [hfirst, Except.bind] at h
  | ok given =>
    obtain ⟨between, a⟩ := given
    simp only [hfirst, Except.bind] at h
    obtain ⟨first, rfl, hfirst'⟩ := hf g _ a hfirst
    obtain ⟨second, rfl, hsecond⟩ := hnext a _ k b h
    refine ⟨first.append second, g.append_assoc first second, fun g' hg' => ?_⟩
    simp only [hfirst' g' hg', Except.bind]
    rw [hsecond _ (by rw [Given.shape_append, Given.shape_append, hg']),
      Given.append_assoc]

theorem Adds.after {α : Type} {record : Given → Except Stop Given}
    {f : Given → Except Stop (Given × α)}
    (hrecord : Adds fun g => (record g).map fun g => (g, ())) (hf : Adds f) :
    Adds fun g => (record g).bind f := by
  have heq : (fun g => (record g).bind f) = fun g =>
      ((record g).map fun g => (g, ())).bind fun given => f given.1 := by
    funext g
    cases record g <;> rfl
  rw [heq]
  exact hrecord.bind fun _ => hf

/-- What is recorded if the names and numbers allow it is added. -/
theorem adds_of_refused {record : Given → Except Stop Given} (new : Given)
    (refused : List OptionName × Nat → Option Stop)
    (h : ∀ g, record g =
      match refused g.shape with
      | some stop => .error stop
      | none => .ok (g.append new)) :
    Adds fun g => (record g).map fun g => (g, ()) := by
  intro g k a hk
  cases hrefused : refused g.shape with
  | some stop => simp [h, hrefused, Except.map] at hk
  | none =>
    simp only [h, hrefused, Except.map, Except.ok.injEq, Prod.mk.injEq] at hk
    refine ⟨new, hk.1.symm, fun g' hg' => ?_⟩
    simp [h, hg', hrefused, Except.map]

/-- An option is refused for its name and its value, and because it has
been given before. -/
theorem adds_give (o : OptionSpec) (value : Text) :
    Adds fun g => (o.give g value).map fun g => (g, ()) := by
  refine adds_of_refused ⟨[(o.name, value)], []⟩ (fun shape =>
    if o.name = .help then some .help
    else if o.name = .version then some .version
    else if shape.1.any (· == o.name) && !o.repeatable ||
      !o.accepts value then some .usage
    else none) fun g => ?_
  rw [← g.has_eq]
  unfold OptionSpec.give
  cases o.name <;> simp only [reduceCtorEq, if_true, if_false, Given.append,
    List.append_nil] <;>
    split <;> rfl

/-- Other arguments are refused because there are too many. -/
theorem adds_giveOthers (most : Nat) (args : List Text) :
    Adds fun g => (OptionTable.giveOthers most g args).map fun g => (g, ()) := by
  refine adds_of_refused ⟨[], args⟩ (fun shape =>
    if most < shape.2 + args.length then some .usage else none)
    fun g => ?_
  by_cases hmany : most < g.others.length + args.length <;>
    simp [OptionTable.giveOthers, Given.append, Given.shape, hmany]

theorem map_eq_bind {α : Type} (result : Except Stop Given) (a : α) :
    (result.map fun g => (g, a)) = result.bind fun g => .ok (g, a) := by
  cases result <;> rfl

namespace OptionTable

variable (table : OptionTable)

theorem adds_giveShort (text : Text) : Adds fun g => giveShort table g text := by
  induction text with
  | nil => exact adds_ok none
  | cons c rest ih =>
    unfold giveShort
    cases table.findShort? c with
    | none => exact adds_error .usage
    | some o =>
      cases htakes : o.takesValue with
      | false => simpa [htakes] using (adds_give o []).after ih
      | true =>
        simp only [htakes, Bool.not_true, Bool.false_eq_true, if_false, map_eq_bind]
        split
        next => exact adds_ok (some o)
        next value => exact (adds_give o value).after (adds_ok none)
        next => exact (adds_give o rest).after (adds_ok none)

theorem adds_giveLong (text : Text) : Adds fun g => giveLong table g text := by
  unfold giveLong
  simp only [map_eq_bind]
  split
  next => exact adds_error .usage
  next o _ _ =>
    split
    next => exact adds_ok (some o)
    next => exact (adds_give o []).after (adds_ok none)
  next o value _ _ =>
    split
    next => exact (adds_give o value).after (adds_ok none)
    next => exact adds_error .usage

/-- What one argument gives, if it is no double hyphen and no command. -/
def take (most : Nat) (waiting : Option OptionSpec) (g : Given) (arg : Text) :
    Except Stop (Given × Option OptionSpec) :=
  match giveOption? table waiting g arg, waiting with
  | some given, _ => given
  | none, some o => (o.give g arg).map fun g => (g, none)
  | none, none => (giveOthers most g [arg]).map fun g => (g, none)

theorem scan_cons (most : Nat) (isCommand : Text → Bool)
    (waiting : Option OptionSpec) (g : Given) (arg : Text) (rest : List Text) :
    scan table most isCommand waiting g (arg :: rest) =
      if waiting.isNone && isCommand arg then .ok (g, arg :: rest)
      else if arg = ['-', '-'] then
        if waiting.isSome then .error .usage
        else (giveOthers most g rest).map fun g => (g, [])
      else (take table most waiting g arg).bind fun next =>
        scan table most isCommand next.2 next.1 rest := by
  have hmap (result : Except Stop Given) :
      (result.map fun g => (g, none)).bind (fun next : Given × Option OptionSpec =>
      scan table most isCommand next.2 next.1 rest) = result.bind fun g =>
        scan table most isCommand none g rest := by
    cases result <;> rfl
  conv => lhs; unfold scan
  unfold take
  cases giveOption? table waiting g arg <;> cases waiting <;> simp [hmap]

theorem adds_take (most : Nat) (waiting : Option OptionSpec) (arg : Text) :
    Adds fun g => take table most waiting g arg := by
  have hoption : (∃ f, Adds f ∧ ∀ g, giveOption? table waiting g arg = some (f g)) ∨
      ∀ g, giveOption? table waiting g arg = none := by
    have hoption' (f : Given → Except Stop (Given × Option OptionSpec))
        (hf : Adds f) :
        Adds fun g => if waiting.isSome then .error .usage else f g := by
      cases waiting with
      | none => exact hf
      | some o => exact adds_error .usage
    unfold giveOption?
    split
    next text => exact .inl ⟨_, hoption' _ (adds_giveLong table text), fun _ => rfl⟩
    next c text _ =>
      exact .inl ⟨_, hoption' _ (adds_giveShort table (c :: text)), fun _ => rfl⟩
    next => exact .inr fun _ => rfl
  unfold take
  rcases hoption with ⟨f, hf, hgive⟩ | hnone
  · simp only [hgive]
    exact hf
  · simp only [hnone, map_eq_bind]
    cases waiting with
    | none => exact (adds_giveOthers most [arg]).after (adds_ok none)
    | some o => exact (adds_give o arg).after (adds_ok none)

theorem adds_scan (most : Nat) (isCommand : Text → Bool)
    (waiting : Option OptionSpec) (args : List Text) :
    Adds fun g => scan table most isCommand waiting g args := by
  induction args generalizing waiting with
  | nil =>
    unfold scan
    split
    next => exact adds_error .usage
    next => exact adds_ok []
  | cons arg rest ih =>
    simp only [scan_cons, map_eq_bind]
    split
    next => exact adds_ok (arg :: rest)
    next =>
      split
      next =>
        split
        next => exact adds_error .usage
        next => exact (adds_giveOthers most rest).after (adds_ok [])
      next => exact (adds_take table most waiting arg).bind ih

/-! ## A selection among arguments -/

variable {table}

/-- An argument is taken for an option if something stands behind its hyphen. -/
def looksLikeOption : Text → Bool
  | '-' :: _ :: _ => true
  | _ => false

theorem looksLikeOption_cons {c : Char} (h : c ≠ '-') (text : Text) :
    looksLikeOption (c :: text) = false := by
  unfold looksLikeOption
  split
  next heq => exact absurd (List.cons.inj heq).1 h
  next => rfl

theorem giveOption?_eq_none {waiting : Option OptionSpec} {g : Given} {arg : Text}
    (h : looksLikeOption arg = false) :
    giveOption? table waiting g arg = none := by
  unfold giveOption?
  split
  next => cases h
  next => cases h
  next => rfl

theorem giveOption?_eq_error {o : OptionSpec} {g : Given} {arg : Text}
    (h : looksLikeOption arg = true) :
    giveOption? table (some o) g arg = some (.error .usage) := by
  unfold giveOption?
  split
  next => rfl
  next => rfl
  next hlong hshort =>
    unfold looksLikeOption at h
    split at h
    next c text => exact absurd rfl (hshort c text)
    next => cases h

/-- An option of one letter, by itself. -/
theorem take_letter {most : Nat} {waiting : Option OptionSpec} {g : Given}
    {c : Char} (hc : c ≠ '-') :
    take table most waiting g ['-', c] = if waiting.isSome then .error .usage else
      giveShort table g [c] := by
  have hoption : giveOption? table waiting g ['-', c] =
      some (if waiting.isSome then .error .usage else giveShort table g [c]) := by
    unfold giveOption?
    split
    next heq => simp_all
    next heq => simp_all
    next hlong hshort => exact absurd rfl (hshort c [])
  unfold take
  rw [hoption]

/-- An option that waits for its value gets the next argument, but not if that
looks like an option. -/
theorem scan_value {most : Nat} {isCommand : Text → Bool} {o : OptionSpec}
    {g : Given} (value : Text) (rest : List Text) :
    scan table most isCommand (some o) g (value :: rest) =
      if looksLikeOption value then .error .usage
      else (o.give g value).bind fun g => scan table most isCommand none g rest := by
  rw [scan_cons, if_neg (by simp)]
  cases hoption : looksLikeOption value with
  | true =>
    have htake : take table most (some o) g value = .error .usage := by
      unfold take
      rw [giveOption?_eq_error hoption]
    rw [htake]
    split <;> rfl
  | false =>
    have htake : take table most (some o) g value = (o.give g value).map fun g =>
        (g, none) := by
      unfold take
      rw [giveOption?_eq_none hoption]
    have hhyphens : value ≠ ['-', '-'] := by
      rintro rfl
      cases hoption
    rw [if_neg hhyphens, htake]
    cases o.give g value <;> rfl

/-- What comes of the arguments in front, whatever stands behind them: they are
refused, they name a command, they have a double hyphen in them, or the rest is
gone through as well. -/
theorem scan_front (most : Nat) (isCommand : Text → Bool) (front : List Text)
    (waiting : Option OptionSpec) (g : Given) :
    (∃ stop, ∀ tail, scan table most isCommand waiting g (front ++ tail) =
      .error stop) ∨
    (∃ k name front', isCommand name = true ∧
      ∀ tail, scan table most isCommand waiting g (front ++ tail) =
        .ok (k, name :: (front' ++ tail))) ∨
    (∃ k others, ∀ tail, scan table most isCommand waiting g (front ++ tail) =
      (giveOthers most k (others ++ tail)).map fun g => (g, [])) ∨
    ∃ waiting' k, ∀ tail, scan table most isCommand waiting g (front ++ tail) =
      scan table most isCommand waiting' k tail := by
  induction front generalizing waiting g with
  | nil => exact .inr (.inr (.inr ⟨waiting, g, fun _ => rfl⟩))
  | cons arg front ih =>
    simp only [List.cons_append, scan_cons]
    split
    next hcommand =>
      exact .inr (.inl ⟨g, arg, front, (Bool.and_eq_true_iff.1 hcommand).2,
        fun _ => rfl⟩)
    next =>
      split
      next =>
        split
        next => exact .inl ⟨.usage, fun _ => rfl⟩
        next => exact .inr (.inr (.inl ⟨g, front, fun _ => rfl⟩))
      next =>
        cases take table most waiting g arg with
        | error stop => exact .inl ⟨stop, fun _ => rfl⟩
        | ok next => exact ih next.2 next.1

theorem giveOthers_eq_error {most : Nat} {g : Given} {args : List Text}
    (h : most < args.length) :
    giveOthers most g args = .error .usage := by
  unfold giveOthers
  rw [if_pos (by rw [List.length_append]; omega)]

/-- Behind a command, where at most one other argument may stand, a selection is
given and another one could be given in its place. -/
theorem scan_selection {o : OptionSpec} (hshort : table.findShort? 's' = some o)
    (htakes : o.takesValue = true)
    (hgive : ∀ g value, o.give g value = .ok (g.append ⟨[(.selection, value)], []⟩))
    {most : Nat} (hmost : most ≤ 1) {front back : List Text} {x : Text}
    {waiting : Option OptionSpec} {g k : Given} {rest : List Text}
    (h : scan table most (fun _ => false) waiting g
      (front ++ ['-', 's'] :: x :: back) = .ok (k, rest)) :
    ∃ before after others, k = ⟨before ++ (.selection, x) :: after, others⟩ ∧
      ∀ y : Text, looksLikeOption y = false →
        scan table most (fun _ => false) waiting g
          (front ++ ['-', 's'] :: y :: back) =
          .ok (⟨before ++ (.selection, y) :: after, others⟩, rest) := by
  rcases scan_front most (fun _ => false) front waiting g with
    ⟨stop, hstop⟩ | ⟨_, _, _, hcommand, _⟩ | ⟨k', others, hothers⟩ | ⟨waiting',
      k', hreached⟩
  · rw [hstop] at h
    cases h
  · cases hcommand
  · have hmany : most < (others ++ ['-', 's'] :: x :: back).length := by
      rw [List.length_append, List.length_cons, List.length_cons]
      omega
    rw [hothers, giveOthers_eq_error hmany] at h
    cases h
  · have hpair (value : Text) : scan table most (fun _ => false) waiting g
        (front ++ ['-', 's'] :: value :: back) =
        if waiting'.isSome || looksLikeOption value then .error .usage
        else scan table most (fun _ => false) none
          (k'.append ⟨[(.selection, value)], []⟩) back := by
      rw [hreached, scan_cons, take_letter (by decide)]
      cases waiting' <;> simp [giveShort, hshort, htakes, hgive,
        Except.bind, scan_value]
    rw [hpair] at h
    split at h
    next => cases h
    next hgiven =>
      obtain ⟨new, rfl, hsame⟩ := adds_scan table most _ none back _ _ _ h
      refine ⟨k'.options, new.options, k'.others ++ new.others, by
        simp [Given.append], fun y hy => ?_⟩
      have hshape : (k'.append ⟨[(.selection, y)], []⟩).shape =
          (k'.append ⟨[(.selection, x)], []⟩).shape := by
        simp [Given.append, Given.shape]
      have hwaiting : ¬(waiting'.isSome || looksLikeOption y) = true := by simp_all
      rw [hpair, if_neg hwaiting]
      refine (hsame _ hshape).trans ?_
      simp [Given.append]

/-- In front of a command, where no other argument may stand and the option of
selections is not known, a command is named before one is given. -/
theorem scan_before {isCommand : Text → Bool}
    (hshort : table.findShort? 's' = none)
    (hcommand : isCommand ['-', 's'] = false) {front : List Text}
    {waiting : Option OptionSpec} {g k : Given} {x : Text} {back rest : List Text}
    (h : scan table 0 isCommand waiting g (front ++ ['-', 's'] :: x :: back) =
      .ok (k, rest)) :
    ∃ name front', isCommand name = true ∧
      rest = name :: (front' ++ ['-', 's'] :: x :: back) ∧
      ∀ y, scan table 0 isCommand waiting g (front ++ ['-', 's'] :: y :: back) =
        .ok (k, name :: (front' ++ ['-', 's'] :: y :: back)) := by
  rcases scan_front 0 isCommand front waiting g with
    ⟨stop, hstop⟩ | ⟨k', name, front', hname,
      hstopped⟩ | ⟨k', others, hothers⟩ | ⟨waiting', k', hreached⟩
  · rw [hstop] at h
    cases h
  · rw [hstopped] at h
    cases h
    exact ⟨name, front', hname, rfl, fun y => hstopped _⟩
  · have hmany : 0 < (others ++ ['-', 's'] :: x :: back).length := by
      rw [List.length_append, List.length_cons]
      omega
    rw [hothers, giveOthers_eq_error hmany] at h
    cases h
  · rw [hreached, scan_cons, take_letter (by decide)] at h
    cases waiting' <;> simp [giveShort, hshort, hcommand, Except.bind] at h

end OptionTable

/-! ## Requests -/

theorem values_selection (before after : List (OptionName × Text)) (x : Text)
    (others : List Text) :
    Given.values ⟨before ++ (.selection, x) :: after, others⟩ .selection =
      Given.values ⟨before, []⟩ .selection ++ x :: Given.values ⟨after, []⟩
        .selection := by
  simp [Given.values]

theorem value?_of_ne {name : OptionName} (hname : name ≠ .selection)
    (before after : List (OptionName × Text)) (x : Text) (others : List Text) :
    Given.value? ⟨before ++ (.selection, x) :: after, others⟩ name =
      Given.value? ⟨before ++ after, []⟩ name := by
  simp [Given.value?, Given.values, hname.symm]

/-- A request with another selection is the same but for that selection. -/
theorem cycleRequest?_selection {before after : List (OptionName × Text)}
    {others : List Text} {x : Text} {request : CycleRequest}
    (h : cycleRequest? ⟨before ++ (.selection, x) :: after, others⟩ =
      some (.cycle request)) :
    ∃ selectionsBefore selectionsAfter,
      request.selections = selectionsBefore ++ x :: selectionsAfter ∧
      ∀ y, cycleRequest? ⟨before ++ (.selection, y) :: after, others⟩ =
        some (.cycle { request with
          selections := selectionsBefore ++ y :: selectionsAfter }) := by
  have hhas (y : Text) :
      Given.has ⟨before ++ (.selection, y) :: after, others⟩ .write =
      Given.has ⟨before ++ after, []⟩ .write := by
    have hname : (OptionName.selection == OptionName.write) = false := rfl
    simp [Given.has, hname]
  unfold cycleRequest? at h ⊢
  simp only [values_selection, hhas,
    value?_of_ne (show OptionName.dialect ≠ .selection by decide),
    value?_of_ne (show OptionName.insertVariant ≠ .selection by decide),
    value?_of_ne (show OptionName.format ≠ .selection by decide)] at h ⊢
  cases others with
  | nil => cases h
  | cons path rest =>
    refine ⟨Given.values ⟨before, []⟩ .selection,
      Given.values ⟨after, []⟩ .selection, ?_⟩
    cases hfirst : Given.values ⟨before, []⟩ .selection with
    | nil =>
      rw [hfirst] at h
      cases h
      exact ⟨rfl, fun _ => rfl⟩
    | cons first values =>
      rw [hfirst] at h
      cases h
      exact ⟨rfl, fun _ => rfl⟩

theorem eq_cycle_of_request? {name : CommandName} {g : Given}
    {request : CycleRequest} (h : request? name g = some (.cycle request)) :
    name = .cycle := by
  cases name with
  | cycle => rfl
  | dialects => cases h
  | patterns =>
    obtain ⟨dialect, -, hdialect⟩ := Option.map_eq_some_iff.1 h
    cases hdialect
  | detect =>
    obtain ⟨syntaxName, -, hsyntax⟩ := Option.map_eq_some_iff.1 h
    cases hsyntax
  | help => cases h

namespace Invocation

theorem ofCommand_eq (name : CommandName) (root : Given) (args : List Text) :
    ofCommand name root args =
    (name.options.scan name.mostOthers (fun _ => false) none .nothing args).bind
      fun given =>
      match request? name given.1 with
      | none => .error .usage
      | some request =>
        .ok ⟨(given.1.value? .config).orElse fun _ =>
          root.value? .config, request⟩ := rfl

/-- Only the cycle command makes a cycle request, and with another selection it
makes the same one. -/
theorem ofCommand_selection {name : CommandName} {root : Given}
    {front back : List Text} {x : Text} {config : Option Text}
    {request : CycleRequest}
    (h : ofCommand name root (front ++ ['-', 's'] :: x :: back) =
      .ok ⟨config, .cycle request⟩) :
    ∃ before after, request.selections = before ++ x :: after ∧
      ∀ y : Text, OptionTable.looksLikeOption y = false →
        ofCommand name root (front ++ ['-', 's'] :: y :: back) =
          .ok ⟨config, .cycle { request with
            selections := before ++ y :: after }⟩ := by
  simp only [ofCommand_eq] at h ⊢
  cases hscan : name.options.scan name.mostOthers (fun _ => false) none .nothing
    (front ++ ['-', 's'] :: x :: back) with
  | error stop => simp [hscan, Except.bind] at h
  | ok given =>
    simp only [hscan, Except.bind] at h
    cases hrequest : request? name given.1 with
    | none => simp [hrequest] at h
    | some made =>
      simp only [hrequest, Except.ok.injEq, Invocation.mk.injEq] at h
      obtain ⟨rfl, rfl⟩ := h
      obtain rfl := eq_cycle_of_request? hrequest
      obtain ⟨before, after, others, hgiven, hsame⟩ :=
        OptionTable.scan_selection rfl rfl
        (fun g value => by simp [OptionSpec.give, Given.append])
          (Nat.le_refl 1) hscan
      obtain ⟨g, rest⟩ := given
      obtain rfl : g = ⟨before ++ (.selection, x) :: after, others⟩ := hgiven
      obtain ⟨selectionsBefore, selectionsAfter, hselections, hother⟩ :=
        cycleRequest?_selection hrequest
      refine ⟨selectionsBefore, selectionsAfter, hselections, fun y hy => ?_⟩
      have hscan' : CommandName.cycle.options.scan CommandName.cycle.mostOthers
          (fun _ => false) none .nothing
          (front ++ ['-', 's'] :: y :: back) =
            .ok (⟨before ++ (.selection, y) :: after, others⟩, rest) := hsame y hy
      have hrequest' : request? .cycle ⟨before ++ (.selection, y) :: after,
          others⟩ = _ := hother y
      simp only [hscan', Except.bind, hrequest',
        value?_of_ne (show OptionName.config ≠ .selection by decide)]

/-- Arguments that make a cycle command make the same one with another selection. -/
theorem ofArguments_selection {front back : List Text} {x : Text}
    {config : Option Text} {request : CycleRequest}
    (h : ofArguments (front ++ ['-', 's'] :: x :: back) =
      .ok ⟨config, .cycle request⟩) :
    ∃ before after, request.selections = before ++ x :: after ∧
      ∀ y : Text, OptionTable.looksLikeOption y = false →
        ofArguments (front ++ ['-', 's'] :: y :: back) =
          .ok ⟨config, .cycle { request with
            selections := before ++ y :: after }⟩ := by
  unfold ofArguments at h ⊢
  cases hscan :
    rootOptions.scan 0 (fun t => (CommandName.ofText? t).isSome) none .nothing
      (front ++ ['-', 's'] :: x :: back) with
  | error stop => simp [hscan, bind, Except.bind] at h
  | ok given =>
    obtain ⟨root, rest⟩ := given
    obtain ⟨name, front', hname, rfl, hsame⟩ :=
      OptionTable.scan_before (by decide) (by decide) hscan
    simp only [hscan, hsame, bind, Except.bind] at h ⊢
    split at h
    next => cases h
    next => cases h
    next command hnotHelp hcommand =>
      exact ofCommand_selection h

end Invocation

end TemplateTags.Command
