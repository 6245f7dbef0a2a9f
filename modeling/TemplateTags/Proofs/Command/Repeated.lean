import TemplateTags.Proofs.Command.Arguments
import TemplateTags.Proofs.Command.Cycle
import TemplateTags.Proofs.Command.Selection
import TemplateTags.Proofs.Session.Closure
import TemplateTags.Proofs.Session.Runs
/-!
# Calls of the cycle command in a row

A call of the cycle command that writes prints where the selection is now, and the
next call can be given that. Each call starts from nothing but the files and its
arguments, and still several calls do what as many actions of one session do
(`rerun_eq_cycleTimes`): the arguments make the same request but for the
selection, the configuration is the same, because its files are not written to,
and the selection is read back from what was printed as it was.
-/

namespace TemplateTags

/-! ## An action at one selection -/

namespace Session

variable {s : Session} {b : Buffer} {selection : Span}

/-- An action at one selection is never refused. -/
theorem overlap?_plan_of_single (hb : b.Checked)
    (hone : b.selections = [selection]) :
    Edit.overlap? (s.plan b.text b.selections).edits = none := by
  rw [hone]
  exact Plan.overlap?_editsFor_singleton s.active (hb _ (by simp [hone]))

/-- An action at one selection leaves one selection, and it is checked. -/
theorem checked_cycle_of_single {after : Buffer} (hb : b.Checked)
    (hone : b.selections = [selection]) (hcycle : s.cycle b = (after, none)) :
    after.Checked ∧ ∃ moved, after.selections = [moved] := by
  have hstep : ((Editing.mk s b).step .cycle).1.buffer = after := by
    show (s.cycle b).1 = after
    rw [hcycle]
  have hbuffer : (Editing.mk s b).buffer.Checked := hb
  have hchecked := (Editing.checked_step_cycle_iff hbuffer).2
    (Editing.keepsCuts_of_single hbuffer hone)
  have hlength := Editing.length_selections_step hbuffer .cycle
  rw [hstep] at hchecked hlength
  exact ⟨hchecked, List.length_eq_one_iff.1 (hlength.trans (by simp [hone]))⟩

end Session

namespace Command

open Text

/-! ## The same configuration -/

/-- The paths of the configuration files that are used. -/
def CycleInput.documents (input : CycleInput) : List Text :=
  (input.projectDocument :: input.config.toList).filterMap input.place?

theorem filesOfTree_ne_missing_iff (t : FileTree) (path : Text) :
    filesOfTree t path ≠ .missing ↔ (t.locate? path).isSome = true := by
  rw [← FileTree.isSome_read?]
  unfold filesOfTree
  cases t.read? path <;> simp

/-- A call of the command with one selection. -/
def callInput (config : Option Text) (request : CycleRequest) (selection : Text)
    (t : FileTree) : CycleInput :=
  ⟨config, { request with selections := [selection] }, filesOfTree t⟩

variable {config : Option Text} {request : CycleRequest}

/-- A configuration file is where it was and holds what it held, if it is not the
file that was written to. -/
theorem document_callInput {t u : FileTree} {first selection path : Text}
    (h : t.Rewritten request.path u)
    (hne : ∀ place, (callInput config request first t).place? path = some place →
      t.locate? place ≠ t.locate? request.path) :
    (callInput config request selection u).document path =
      (callInput config request first t).document path := by
  have hthere : (fun p => decide (filesOfTree u p ≠ .missing)) = fun p =>
      decide (filesOfTree t p ≠ .missing) := by
    funext p
    simp only [filesOfTree_ne_missing_iff, h.locate?]
  have hplace : (callInput config request selection u).place? path =
      (callInput config request first t).place? path := by
    unfold CycleInput.place? callInput
    rw [hthere]
  unfold CycleInput.document
  rw [hplace]
  cases hfound : (callInput config request first t).place? path with
  | none => rfl
  | some place =>
    have hread := h.read?_of_ne (hne place hfound)
    simp only [Option.elim_some, callInput, filesOfTree, hread]

/-- What was written to the file and which selection is given make no difference
to the configuration. -/
theorem settings?_callInput {t u : FileTree} {first selection : Text}
    (h : t.Rewritten request.path u)
    (hdocuments : ∀ path ∈ (callInput config request first t).documents,
      t.locate? path ≠ t.locate? request.path) :
    (callInput config request selection u).settings? =
      (callInput config request first t).settings? := by
  have hdocument (path : Text)
      (hmem : path ∈ (callInput config request first t).projectDocument
        :: config.toList) :
      (callInput config request selection u).document path =
        (callInput config request first t).document path :=
    document_callInput h fun place hplace =>
      hdocuments place (List.mem_filterMap.2 ⟨path, hmem, hplace⟩)
  have hconfig : config.map (callInput config request selection u).document =
      config.map (callInput config request first t).document := by
    cases hc : config with
    | none => rfl
    | some path => exact congrArg some (hc ▸ hdocument path (by simp [hc]))
  have hproject : (callInput config request selection u).document
        (callInput config request selection u).projectDocument =
      (callInput config request first t).document
        (callInput config request first t).projectDocument :=
    hdocument _ List.mem_cons_self
  show (layers? ((callInput config request selection u).document _)
    (config.map (callInput config request selection u).document)).bind _ = _
  rw [hconfig, hproject]
  rfl

theorem session?_callInput {t u : FileTree} {first selection : Text}
    (h : (callInput config request selection u).settings? =
      (callInput config request first t).settings?) :
    (callInput config request selection u).session? =
      (callInput config request first t).session? := by
  unfold CycleInput.session?
  rw [h]
  rfl

/-- Three of the checks are about the configuration only. -/
theorem failure?_callInput {t u : FileTree} {first selection : Text} {c : Check}
    (h : (callInput config request selection u).settings? =
      (callInput config request first t).settings?)
    (hc : c ∈ [Check.configuration, .dialects, .chosenDialect]) :
    c.failure? (callInput config request selection u) =
      c.failure? (callInput config request first t) := by
  simp only [List.mem_cons, List.not_mem_nil, or_false] at hc
  rcases hc with rfl | rfl | rfl
  · simp only [Check.failure?, h]
  · simp only [Check.failure?, h]
  · simp only [Check.failure?, CycleInput.registry?, h]
    rfl

/-! ## One call after another -/

/-- Call the program several times with arguments that have a selection in
them: first with one that is given, and then with the line that the last
call has printed. What is left are the files and the last selection, if
all calls succeed. -/
def rerun (args : Text → List Text) (t : FileTree) (selection : Text) :
    Nat → Option (FileTree × Text)
  | 0 => some (t, selection)
  | n + 1 => (rerun args t selection n).bind fun last =>
    let response := respond (args last.2) (filesOfTree last.1)
    if response.exitCode = 0 then
      some (response.applyTo last.1, firstLine response.output)
    else none

/-- A selection in a text is read back if the text's size can be. -/
theorem selection?_words_of_hasSpan {text : Text} {s : Span} (h : text.HasSpan s)
    (hsize : text.size ≤ maxNumber) : selection? s.words = some s := by
  have hstop := h.stop.le_size
  have hordered := h.ordered
  exact selection?_render (by omega) (by omega)

/-- After some calls that began with the files `t` the next one, with these files
and this selection, finds what the next action of a session does. -/
structure Ready (request : CycleRequest) (t u : FileTree) (selection : Text)
    (b : Buffer) : Prop where
  rewritten : t.Rewritten request.path u
  text : u.read? request.path = some b.text
  selected : ∃ given, selection? selection = some given ∧
    b.selections = [given.ordered]
  checked : b.Checked

namespace Ready

variable {t u : FileTree} {selection : Text} {b : Buffer} {s : Session}

theorem text? (h : Ready request t u selection b) (config : Option Text) :
    (callInput config request selection u).text? = some b.text := by
  simp only [CycleInput.text?, callInput, filesOfTree, h.text]

theorem withSelections (h : Ready request t u selection b) (config : Option Text) :
    (Buffer.ofText b.text).withSelections
      (callInput config request selection u).spans = .ok b := by
  obtain ⟨given, hgiven, hone⟩ := h.selected
  have hspans : (callInput config request selection u).spans = [given] := by
    simp [CycleInput.spans, callInput, hgiven]
  rw [hspans]
  refine Buffer.withSelections_eq_ok_iff.2 ⟨?_, fun r hr => ?_⟩
  · rw [List.map_singleton, ← hone]
    rfl
  · obtain rfl := List.mem_singleton.1 hr
    exact h.checked _ (by simp [hone])

theorem buffer? (h : Ready request t u selection b) (config : Option Text) :
    (callInput config request selection u).buffer? = some b := by
  rw [CycleInput.buffer?, h.text?, Option.bind_some, h.withSelections]
  rfl

/-- No check fails, if none fails that is about the configuration. -/
theorem first? (h : Ready request t u selection b)
    (hchecks : ∀ c ∈ [Check.configuration, .dialects, .chosenDialect],
      c.failure? (callInput config request selection u) = none) :
    Check.first? (callInput config request selection u) = none := by
  obtain ⟨given, hgiven, hone⟩ := h.selected
  refine List.findSome?_eq_none_iff.2 fun c _ => ?_
  cases c with
  | configuration => exact hchecks _ (by simp)
  | selections => simp [Check.failure?, callInput, hgiven]
  | dialects => exact hchecks _ (by simp)
  | chosenDialect => exact hchecks _ (by simp)
  | file => simp [Check.failure?, h.text?]
  | bounds => simp [Check.failure?, h.text?, h.withSelections]
  | edits =>
    have hoverlap (s : Session) :=
      Session.overlap?_plan_of_single (s := s) h.checked hone
    cases hsession : (callInput config request selection u).session? <;>
      simp [Check.failure?, h.buffer?, hsession, hoverlap]

/-- A call does an action and prints where the selection has been moved. -/
theorem respond_eq (h : Ready request t u selection b) {args : List Text}
    (hargs : Invocation.ofArguments args =
      .ok ⟨config, .cycle { request with selections := [selection] }⟩)
    (hwrite : request.write = true)
    (hchecks : ∀ c ∈ [Check.configuration, .dialects, .chosenDialect],
      c.failure? (callInput config request selection u) = none)
    (hsession : (callInput config request selection u).session? = some s) :
    ∃ after moved, s.cycle b = (after, none) ∧ after.Checked ∧
      after.selections = [moved] ∧
      respond args (filesOfTree u) =
        ⟨0, moved.words ++ "\n".toList, [], some (request.path, after.text)⟩ := by
  obtain ⟨given, hgiven, hone⟩ := h.selected
  have hrun := run_cycle (callInput config request selection u)
  rw [h.first? hchecks] at hrun
  obtain ⟨s', b', after, hs', hb', hcycle, hok⟩ := hrun
  obtain rfl : s = s' := Option.some.inj (hsession.symm.trans hs')
  obtain rfl : b = b' := Option.some.inj ((h.buffer? config).symm.trans hb')
  obtain ⟨hchecked, moved, hmoved⟩ :=
    Session.checked_cycle_of_single h.checked hone hcycle
  refine ⟨after, moved, hcycle, hchecked, hmoved, ?_⟩
  have hrespond : respond args (filesOfTree u) =
      (outcomeOf s { request with selections := [selection] } b after).response := by
    simp only [callInput] at hok
    rw [respond_eq_run hargs, hok]
  rw [hrespond, outcomeOf, if_pos hwrite, hmoved]
  simp [Outcome.response]

/-- What a call leaves and prints is there for the next one. -/
theorem next (h : Ready request t u selection b) {after : Buffer} {moved : Span}
    (hchecked : after.Checked) (hmoved : after.selections = [moved])
    (hsize : after.text.size ≤ maxNumber) :
    Ready request t (u.write request.path after.text) moved.words after := by
  have hspan : after.text.HasSpan moved := hchecked _ (by simp [hmoved])
  obtain ⟨names, hnames, -⟩ := FileTree.locate?_of_read? h.text
  refine ⟨h.rewritten.write after.text, ?_,
    ⟨moved, selection?_words_of_hasSpan hspan hsize, ?_⟩, hchecked⟩
  · rw [FileTree.read?_write hnames, if_pos hnames]
  · rw [hspan.ordered_eq, hmoved]

end Ready

/-- The first call is ready if the selection can be read and is in the file's
text. -/
theorem exists_ready {t : FileTree} {selection : Text}
    (hchecks : ∀ c ∈ [Check.selections, .file, .bounds],
      c.failure? (callInput config request selection t) = none) :
    ∃ b, Ready request t t selection b := by
  have hselections := hchecks .selections (by simp)
  have hfile := hchecks .file (by simp)
  have hbounds := hchecks .bounds (by simp)
  obtain ⟨given, hgiven⟩ : ∃ given, selection? selection = some given := by
    cases hgiven : selection? selection with
    | none => simp [Check.failure?, callInput, hgiven] at hselections
    | some given => exact ⟨given, rfl⟩
  have hspans : (callInput config request selection t).spans = [given] := by
    simp [CycleInput.spans, callInput, hgiven]
  obtain ⟨text, hread⟩ : ∃ text, t.read? request.path = some text := by
    cases hread : t.read? request.path with
    | none =>
      simp [Check.failure?, CycleInput.text?, callInput, filesOfTree, hread] at hfile
    | some text => exact ⟨text, rfl⟩
  have htext : (callInput config request selection t).text? = some text := by
    simp only [CycleInput.text?, callInput, filesOfTree, hread]
  simp only [Check.failure?, htext, hspans, Option.bind_some] at hbounds
  cases hbuffer : (Buffer.ofText text).withSelections [given] with
  | error e => simp [hbuffer] at hbounds
  | ok b =>
    have hchecked := Buffer.checked_of_withSelections hbuffer
    obtain ⟨rfl, -⟩ := Buffer.withSelections_eq_ok_iff.1 hbuffer
    exact ⟨_, .refl t _, hread, ⟨given, hgiven, rfl⟩, hchecked⟩

theorem exists_session {input : CycleInput}
    (hchecks : ∀ c ∈ [Check.configuration, .dialects], c.failure? input = none) :
    ∃ s, input.session? = some s := by
  have hconfiguration := hchecks .configuration (by simp)
  have hdialects := hchecks .dialects (by simp)
  cases hsettings : input.settings? with
  | none => simp [Check.failure?, hsettings] at hconfiguration
  | some settings =>
    cases hregistry : settings.registry with
    | error e => simp [Check.failure?, hsettings, hregistry] at hdialects
    | ok r =>
      rw [CycleInput.session?, hsettings, Option.bind_some, hregistry]
      exact ⟨_, rfl⟩

theorem newline_notMem_words (s : Span) : '\n' ∉ s.words := by
  simp [Span.words, Json.newline_notMem_toDigits]

theorem firstLine_append {line : Text} (h : '\n' ∉ line) (rest : Text) :
    firstLine (line ++ '\n' :: rest) = line := by
  have hline : ∀ c ∈ line, decide (c ≠ '\n') = true :=
    fun c hc => decide_eq_true fun heq => h (heq ▸ hc)
  unfold firstLine
  rw [List.takeWhile_append_of_pos hline, List.takeWhile_cons_of_neg (by simp),
    List.append_nil]

/-- A printed selection is taken for the value of an option. -/
theorem looksLikeOption_words (s : Span) :
    OptionTable.looksLikeOption s.words = false := by
  cases hstart : ofNat s.start with
  | nil => exact absurd hstart (ofNat_ne_nil s.start)
  | cons c digits =>
    have hdigit : c.isDigit := isDigit_of_mem_ofNat (n := s.start) (by simp [hstart])
    have hhyphen : c ≠ '-' := by
      rintro rfl
      cases hdigit
    rw [← Span.render_eq, Span.render, hstart]
    exact OptionTable.looksLikeOption_cons hhyphen _

/-- As long as the texts are not too long for their offsets to be read, calls in a
row do what actions in a row do. -/
theorem exists_rerun {args : Text → List Text} {t : FileTree} {selection : Text}
    {b : Buffer} {s : Session}
    (hargs : ∀ y, y = selection ∨ OptionTable.looksLikeOption y = false →
      Invocation.ofArguments (args y) =
        .ok ⟨config, .cycle { request with selections := [y] }⟩)
    (hwrite : request.write = true) (hready : Ready request t t selection b)
    (hchecks : ∀ c ∈ [Check.configuration, .dialects, .chosenDialect],
      c.failure? (callInput config request selection t) = none)
    (hdocuments : ∀ path ∈ (callInput config request selection t).documents,
      t.locate? path ≠ t.locate? request.path)
    (hsession : (callInput config request selection t).session? = some s)
    {n : Nat} (hsize : ∀ k ≤ n, (s.cycleTimes b k).1.text.size ≤ maxNumber) :
    ∃ after moved last printed, s.cycleTimes b n = (after, none) ∧
      after.selections = [moved] ∧
      rerun args t selection n = some (last, printed) ∧
      Ready request t last printed after ∧
      (printed = moved.words ∨ n = 0 ∧ printed = selection) := by
  induction n with
  | zero =>
    obtain ⟨given, -, hone⟩ := hready.selected
    exact ⟨b, _, t, selection, rfl, hone, rfl, hready, .inr ⟨rfl, rfl⟩⟩
  | succ n ih =>
    obtain ⟨before, moved, last, printed, hcycles, hone, hrun, hnext, hprinted⟩ :=
      ih fun k hk => hsize k (by omega)
    have haccepted : Invocation.ofArguments (args printed) =
        .ok ⟨config, .cycle { request with selections := [printed] }⟩ := by
      rcases hprinted with rfl | ⟨-, rfl⟩
      · exact hargs _ (.inr (looksLikeOption_words moved))
      · exact hargs _ (.inl rfl)
    have hsettings : (callInput config request printed last).settings? =
        (callInput config request selection t).settings? :=
      settings?_callInput hnext.rewritten hdocuments
    obtain ⟨after, moved', hcycle, hchecked, hmoved, hrespond⟩ :=
      hnext.respond_eq haccepted hwrite
      (fun c hc => (failure?_callInput hsettings hc).trans (hchecks c hc))
      ((session?_callInput hsettings).trans hsession)
    have hcycles' : s.cycleTimes b (n + 1) = (after, none) := by
      rw [Session.cycleTimes, hcycles]
      exact hcycle
    have hlength : after.text.size ≤ maxNumber := by
      have := hsize (n + 1) (Nat.le_refl _)
      rwa [hcycles'] at this
    refine ⟨after, moved', _, _, hcycles', hmoved, ?_,
      hnext.next hchecked hmoved hlength, .inl rfl⟩
    rw [rerun, hrun]
    simp [hrespond, Response.applyTo, firstLine_append (newline_notMem_words moved')]

/-- Any number of calls in a row, each with the selection that the last one has
printed, do what as many actions of one session do on the file's text. All of them
succeed if the first one's configuration and selection are valid, if no
configuration file is the file that is written to, and if the texts are not so
long that their offsets cannot be read, as no text in memory is. The paths may be
absolute, or relative to the working directory of the files. -/
theorem rerun_eq_cycleTimes {front back : List Text} {first : Text}
    (hargs : Invocation.ofArguments (front ++ ['-', 's'] :: first :: back) =
      .ok ⟨config, .cycle request⟩)
    (hone : request.selections = [first]) (hwrite : request.write = true)
    {t : FileTree}
    (hchecks : ∀ c : Check, c ≠ .edits →
      c.failure? ⟨config, request, filesOfTree t⟩ = none)
    (hdocuments : ∀ path ∈ CycleInput.documents ⟨config, request, filesOfTree t⟩,
      t.locate? path ≠ t.locate? request.path) :
    let input : CycleInput := ⟨config, request, filesOfTree t⟩
    (∃ s b, input.session? = some s ∧ input.buffer? = some b ∧
      ∀ n, (∀ k ≤ n, (s.cycleTimes b k).1.text.size ≤ maxNumber) →
        ∃ after selection last printed,
          s.cycleTimes b n = (after, none) ∧ after.selections = [selection] ∧
            rerun (fun given => front ++ ['-', 's'] :: given :: back) t first n =
              some (last, printed) ∧
            last.read? request.path = some after.text ∧
            (∀ names, t.locate? request.path ≠ some names →
              last.find? names = t.find? names) ∧
            (0 < n →
              printed = selection.words ∧ selection? printed = some selection)) ∧
      ∀ selection : Span, selection.start ≤ maxNumber → selection.stop ≤ maxNumber →
        selection? selection.words = some selection := by
  intro input
  refine ⟨?_, fun selection => selection?_render⟩
  obtain ⟨before, after, hselections, hother⟩ :=
    Invocation.ofArguments_selection hargs
  obtain ⟨rfl, rfl⟩ : before = [] ∧ after = [] := by
    have hlength := congrArg List.length hselections
    rw [hone, List.length_append, List.length_cons] at hlength
    exact ⟨List.length_eq_zero_iff.1 (by simp at hlength; omega),
      List.length_eq_zero_iff.1 (by simp at hlength; omega)⟩
  have hrequest : { request with selections := [first] } = request := by rw [← hone]
  have hinput : callInput config request first t =
      ⟨config, request, filesOfTree t⟩ := by
    rw [callInput, hrequest]
  have haccepted (given : Text)
      (hgiven : given = first ∨ OptionTable.looksLikeOption given = false) :
      Invocation.ofArguments (front ++ ['-', 's'] :: given :: back) =
        .ok ⟨config, .cycle { request with selections := [given] }⟩ := by
    rcases hgiven with rfl | hgiven
    · rw [hargs, hrequest]
    · exact hother given hgiven
  rw [← hinput] at hchecks hdocuments
  obtain ⟨b, hready⟩ := exists_ready fun c hc =>
    hchecks c (by rintro rfl; simp at hc)
  obtain ⟨s, hsession⟩ :=
    exists_session fun c hc => hchecks c (by rintro rfl; simp at hc)
  have hbuffer := hready.buffer? config
  refine ⟨s, b, ?_, ?_, fun n hsize => ?_⟩
  · rwa [hinput] at hsession
  · rwa [hinput] at hbuffer
  obtain ⟨after, selection, last, printed, hcycles, hmoved, hrun, hlast, hprinted⟩ :=
    exists_rerun haccepted hwrite hready
      (fun c hc => hchecks c (by rintro rfl; simp at hc)) hdocuments hsession hsize
  refine ⟨after, selection, last, printed, hcycles, hmoved, hrun, hlast.text,
    hlast.rewritten.find?, fun hn => ?_⟩
  rcases hprinted with rfl | ⟨rfl, -⟩
  · have hlength := hsize n (Nat.le_refl n)
    rw [hcycles] at hlength
    exact ⟨rfl, selection?_words_of_hasSpan
      (hlast.checked _ (by simp [hmoved])) hlength⟩
  · exact absurd hn (Nat.lt_irrefl 0)

/-- Two configuration files, one of them above the working directory, an absolute
path and a reversed selection in a text with wide characters: three calls, with
the last of which the tag has another variant than at first. -/
theorem rerun_eq_cycleTimes_reversed :
    let t : FileTree := .inDirectory ["srv".toList, "w".toList] [
      ("templater.toml".toList, "[cycle]\ndefault_dialect = \"php\"\n".toList),
      ("/srv/box.toml".toList,
        "[dialects.Box]\nopener = \"[[\"\ncloser = \"]]\"\n".toList
          ++ "aliases = [\"txt\"]\n".toList
          ++ "addons = [[\"\", \"\"], [\"!\", \"!\"]]\n".toList),
      ("ü.TXT".toList, "é [[ x ]]\nü\n".toList)]
    let front :=
      ["-c".toList, "../box".toList, "cycle".toList, "/../srv/w/ü.TXT".toList]
    let back := ["--write".toList, "-i1".toList]
    let request : CycleRequest :=
      ⟨"/../srv/w/ü.TXT".toList, ["7..6".toList], none, some 1, .text, true⟩
    let input : CycleInput := ⟨some "../box".toList, request, filesOfTree t⟩
    (∃ s b, input.session? = some s ∧ input.buffer? = some b ∧
      s.cycleTimes b 3 = (⟨"é [[! x !]]\nü\n".toList, [⟨7, 8⟩]⟩, none)) ∧
    ∃ last, last.read? request.path = some "é [[! x !]]\nü\n".toList ∧
      rerun (fun given => front ++ ['-', 's'] :: given :: back) t "7..6".toList 3 =
        some (last, "7..8".toList) := by
  intro t front back request input
  have hargs : Invocation.ofArguments
      (front ++ ['-', 's'] :: "7..6".toList :: back) =
      .ok ⟨some "../box".toList, .cycle request⟩ := rfl
  have hchecks : ∀ c : Check, c ≠ .edits → c.failure? input = none := by
    intro c hc
    cases c with
    | edits => exact absurd rfl hc
    | _ => decide +kernel
  have hdocuments : ∀ path ∈ input.documents,
      t.locate? path ≠ t.locate? request.path := by
    decide +kernel
  have hsizes :
      (input.session?.bind fun (s : Session) => input.buffer?.map fun (b : Buffer) =>
        (List.range 4).all fun k => (s.cycleTimes b k).1.text.size ≤ maxNumber) =
      some true := by
    decide +kernel
  have hgives :
      (input.session?.bind fun (s : Session) => input.buffer?.map fun (b : Buffer) =>
        s.cycleTimes b 3) =
      some (⟨"é [[! x !]]\nü\n".toList, [⟨7, 8⟩]⟩, none) := by
    decide +kernel
  obtain ⟨⟨s, b, hsession, hbuffer, hcalls⟩, -⟩ :=
    rerun_eq_cycleTimes hargs rfl rfl hchecks hdocuments
  rw [hsession, hbuffer] at hsizes hgives
  have hsize : ∀ k ≤ 3, (s.cycleTimes b k).1.text.size ≤ maxNumber := by
    intro k hk
    have hmem := List.mem_range.2 (Nat.lt_succ_of_le hk)
    exact of_decide_eq_true (List.all_eq_true.1 (Option.some.inj hsizes) k hmem)
  have hthree := Option.some.inj hgives
  obtain ⟨after, selection, last, printed, hcycles, hone, hrun, hread, -,
    hprinted⟩ := hcalls 3 hsize
  obtain rfl := congrArg Prod.fst (hcycles.symm.trans hthree)
  obtain rfl : ⟨7, 8⟩ = selection := List.singleton_inj.1 hone
  have hwords : Span.words ⟨7, 8⟩ = "7..8".toList := by decide
  refine ⟨⟨s, b, hsession, hbuffer, hthree⟩, last, hread, ?_⟩
  rw [hrun, (hprinted (by decide)).1, hwords]

end Command

end TemplateTags
