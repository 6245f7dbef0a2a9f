import TemplateTags.Proofs.Cycle.Cuts
import TemplateTags.Proofs.Cycle.Following
import TemplateTags.Proofs.Session.Atomic
/-!
# Runs of a session

In a run a session is asked to switch dialects, to choose the variant to insert
and to cycle tags, one request after another (`Editing.run`). The selections stay
spans of the text, and no request fails in a way that leaves the text half edited,
exactly as long as the cycling keeps the cuts that the selections end at
(`Editing.KeepsCuts`). It does where the selections follow their text
(`Editing.keepsCuts_of_undisturbed`), and so it always does with one selection
(`Editing.run_valid_of_single`).
-/

namespace TemplateTags

open Text

/-- What can be asked of a session. -/
inductive Request where
  | select (name : Text)
  | detect (syntaxName : Text) (fileName : Option Text)
  | chooseInsert (index : Nat)
  | cycle
deriving DecidableEq, Repr

/-- A session and the buffer that it is used on. -/
structure Editing where
  session : Session
  buffer : Buffer

namespace Editing

/-- Do what is asked for, and say why it could not be done. -/
def step (state : Editing) : Request → Editing × Option EditError
  | .select name => ({ state with session := state.session.select name }, none)
  | .detect syntaxName fileName =>
    ({ state with session := state.session.detect syntaxName fileName }, none)
  | .chooseInsert index =>
    ({ state with session := state.session.withInsertVariant index }, none)
  | .cycle =>
    let (buffer, error) := state.session.cycle state.buffer
    ({ state with buffer }, error)

/-- Do what is asked for one after another. A request that fails does not end the
run. -/
def run (state : Editing) : List Request → Editing
  | [] => state
  | request :: rest => run (state.step request).1 rest

theorem run_append (state : Editing) (first second : List Request) :
    state.run (first ++ second) = (state.run first).run second := by
  induction first generalizing state with
  | nil => rfl
  | cons request rest ih => exact ih _

/-- The plan of the next cycling. -/
def plan (state : Editing) : Plan :=
  state.session.plan state.buffer.text state.buffer.selections

/-- Cycling the tags, if the edits for them do not overlap, keeps the cuts that
all selections end at. -/
def KeepsCuts (state : Editing) : Prop :=
  Edit.overlap? state.plan.edits = none → ∀ s ∈ state.buffer.selections,
    Plan.KeepsCuts state.buffer.text state.plan.edits
      (TagEdit.ofSelection state.session.active state.buffer.text s)

instance (state : Editing) : Decidable state.KeepsCuts :=
  inferInstanceAs (Decidable (_ → ∀ s ∈ state.buffer.selections,
    Plan.KeepsCuts _ _ _))

variable {state : Editing}

/-- What cycling does to a buffer with checked selections: nothing if edits
overlap, and else what the plan says. -/
theorem step_cycle_cases (h : state.buffer.Checked) :
    (∃ first second, Edit.overlap? state.plan.edits = some (first, second) ∧
        state.step .cycle = (state, some (.overlap first second))) ∨
      ∃ result, Edit.overlap? state.plan.edits = none ∧
        Edit.Rewrites 0 state.buffer.text state.plan.edits result ∧
        state.step .cycle = (⟨state.session, result, state.plan.selections⟩,
          none) := by
  cases hoverlap : Edit.overlap? state.plan.edits with
  | some spans =>
    refine .inl ⟨spans.1, spans.2, rfl, ?_⟩
    rw [step, Session.cycle_of_overlap hoverlap]
  | none =>
    obtain ⟨result, hresult⟩ := Session.exists_rewrites_plan h hoverlap
    refine .inr ⟨result, rfl, hresult, ?_⟩
    rw [step, Session.cycle_of_rewrites hresult]
    rfl

/-- After cycling the selections are spans of the text if the cuts that they
end at were kept. -/
theorem checked_step_cycle_iff (h : state.buffer.Checked) :
    (state.step .cycle).1.buffer.Checked ↔ state.KeepsCuts := by
  rcases step_cycle_cases h with ⟨first, second, hoverlap, hstep⟩ | ⟨result,
    hoverlap, hresult, hstep⟩
  · rw [hstep]
    exact ⟨fun _ hnone => by simp [hoverlap] at hnone, fun _ => h⟩
  · have hnodup : state.plan.edits.Nodup := Plan.nodup_editsFor _ _ _
    have hmoved : ∀ s ∈ state.buffer.selections,
        (result.HasSpan (Plan.moveSelection state.plan.edits
            (TagEdit.ofSelection state.session.active state.buffer.text s)) ↔
          Plan.KeepsCuts state.buffer.text state.plan.edits
            (TagEdit.ofSelection state.session.active state.buffer.text s)) :=
              fun s hs =>
      Plan.hasSpan_moveSelection_iff hnodup hresult
        (TagEdit.placed_ofSelection _ (h s hs))
        (Plan.opener_mem_editsFor _ _ hs) (Plan.closer_mem_editsFor _ _ hs)
    rw [hstep]
    constructor
    · intro hafter _ s hs
      exact (hmoved s hs).1 (hafter _ (List.mem_map_of_mem hs))
    · intro hkeeps t ht
      obtain ⟨s, hs, rfl⟩ := List.mem_map.1 ht
      exact (hmoved s hs).2 (hkeeps hoverlap s hs)

/-- On checked selections a request fails only because edits overlap. -/
theorem step_error (h : state.buffer.Checked) (request : Request)
    (offset size : Nat) :
    (state.step request).2 ≠ some (.outOfBounds offset size) ∧
      (state.step request).2 ≠ some (.insideCharacter offset) := by
  cases request with
  | cycle =>
    rcases step_cycle_cases h with ⟨first, second, -, hstep⟩ | ⟨result, -, -,
      hstep⟩ <;> rw [hstep] <;>
      exact ⟨nofun, nofun⟩
  | _ => exact ⟨nofun, nofun⟩

/-- In every state of a run the selections are spans of the text, and no request
finds an offset that is out of bounds or inside of a character. -/
structure ValidRun (state : Editing) (requests : List Request) : Prop where
  checked : ∀ done rest, requests = done ++ rest → (state.run done).buffer.Checked
  error : ∀ done request rest, requests = done ++ request :: rest → ∀ offset size,
    ((state.run done).step request).2 ≠ some (.outOfBounds offset size) ∧
      ((state.run done).step request).2 ≠ some (.insideCharacter offset)

/-- A run keeps its selections checked as long as the cycling in it keeps cuts. -/
theorem checked_run {requests : List Request} (h : state.buffer.Checked)
    (hkeeps : ∀ done rest, requests = done ++ .cycle :: rest →
      (state.run done).KeepsCuts) :
    (state.run requests).buffer.Checked := by
  induction requests generalizing state with
  | nil => exact h
  | cons request rest ih =>
    have hstep : (state.step request).1.buffer.Checked := by
      cases request with
      | cycle => exact (checked_step_cycle_iff h).2 (hkeeps [] rest rfl)
      | _ => exact h
    exact ih hstep fun done later heq =>
      hkeeps (request :: done) later (by rw [heq]; rfl)

/-- A run on checked selections is valid if and only if each cycling in it whose
edits do not overlap keeps the cuts that the selections end at. -/
theorem run_valid_iff (state : Editing) (h : state.buffer.Checked)
    (requests : List Request) :
    state.ValidRun requests ↔
      ∀ done rest, requests = done ++ .cycle :: rest →
        (state.run done).KeepsCuts := by
  constructor
  · intro hvalid done rest heq
    -- The buffer is checked before this cycling and behind it, so it kept the cuts.
    have hbefore := hvalid.checked done _ heq
    have hafter := hvalid.checked (done ++ [.cycle]) rest (by rw [heq]; simp)
    rw [run_append] at hafter
    exact (checked_step_cycle_iff hbefore).1 hafter
  · intro hkeeps
    have hchecked : ∀ done rest, requests = done ++ rest →
        (state.run done).buffer.Checked :=
      fun done rest heq => checked_run h fun first later heq' =>
        hkeeps first (later ++ rest) (by rw [heq, heq']; simp)
    exact ⟨hchecked, fun done request rest heq =>
      step_error (hchecked done _ heq) request⟩

/-- Cycling twice at two selections that share their tag. -/
theorem run_valid_shared_tag :
    ValidRun ⟨.start .builtin, "<% é b %>".toList, [⟨3, 5⟩, ⟨6, 7⟩]⟩
      [.cycle, .cycle] := by
  refine (run_valid_iff _ (by decide) _).2 fun done rest heq => ?_
  match done with
  | [] => decide
  | [request] =>
    obtain ⟨rfl, -⟩ := List.cons.inj heq
    decide
  | _ :: _ :: _ =>
    have := congrArg List.length heq
    simp at this

/-- The end of a selection over two lines is moved by an insertion in front of it
and its start is not, so the start comes to stand inside of a character. The next
cycling is left half done. -/
theorem not_run_valid_inside_character :
    let state : Editing :=
      ⟨.start .builtin, "<% a 😀😀b\nc %>".toList, [⟨3, 4⟩, ⟨13, 16⟩]⟩
    state.buffer.Checked ∧ ¬ state.ValidRun [.cycle, .cycle] ∧
      ((state.run [.cycle]).step .cycle).2 = some (.insideCharacter 14) := by
  refine ⟨by decide, fun h => ?_, by decide⟩
  have := h.checked [.cycle] [.cycle] rfl
  revert this
  decide

/-! ## Undisturbed selections -/

/-- Cycling keeps the cuts of selections that no edit reaches inside of and that
follow their text. -/
theorem keepsCuts_of_undisturbed (h : state.buffer.Checked)
    (hselections : ∀ s ∈ state.buffer.selections,
      Plan.Untouched state.plan.edits s ∧ Plan.Undisturbed state.plan.edits
        (TagEdit.ofSelection state.session.active state.buffer.text s)) :
    state.KeepsCuts := by
  intro hoverlap s hs
  obtain ⟨huntouched, hundisturbed⟩ := hselections s hs
  obtain ⟨result, hresult⟩ := Session.exists_rewrites_plan h hoverlap
  have horigin := TagEdit.origin_ofSelection state.session.active state.buffer.text s
  have hplaced := TagEdit.placed_ofSelection state.session.active (h s hs)
  have hnodup : state.plan.edits.Nodup := Plan.nodup_editsFor _ _ _
  have hspan : state.buffer.text.HasSpan
      (TagEdit.ofSelection state.session.active state.buffer.text s).origin :=
        horigin.symm ▸ h s hs
  have hfollows :=
    hundisturbed.follows hnodup hresult hspan hplaced (horigin.symm ▸ huntouched)
  refine (Plan.hasSpan_moveSelection_iff hnodup hresult hplaced
    (Plan.opener_mem_editsFor _ _ hs)
    (Plan.closer_mem_editsFor _ _ hs)).1 ?_
  rw [hasSpan_iff_isSome, hfollows.content]
  exact hasSpan_iff_isSome.1 hspan

/-- The edits of one selection's own tag do not disturb it. -/
theorem keepsCuts_of_single {s : Span} (h : state.buffer.Checked)
    (hs : state.buffer.selections = [s]) :
    state.KeepsCuts := by
  refine keepsCuts_of_undisturbed h fun t ht => ?_
  rw [hs, List.mem_singleton] at ht
  subst ht
  have hspan : state.buffer.text.HasSpan t := h t (by simp [hs])
  have hplaced := TagEdit.placed_ofSelection state.session.active hspan
  have hedits : state.plan.edits =
      [(TagEdit.ofSelection state.session.active state.buffer.text t).opener,
      (TagEdit.ofSelection state.session.active state.buffer.text t).closer] := by
    rw [← Plan.editsFor_singleton _ hspan, ← hs]
    rfl
  have hopener := hplaced.opener_le
  have hcloser := hplaced.le_closer
  rw [TagEdit.origin_ofSelection] at hopener hcloser
  rw [hedits]
  refine ⟨fun e he => ?_, [], [], [], rfl, by simp⟩
  simp only [List.mem_cons, List.not_mem_nil, or_false] at he
  rcases he with rfl | rfl
  · exact .inl hopener
  · exact .inr hcloser

theorem length_selections_step (h : state.buffer.Checked) (request : Request) :
    (state.step request).1.buffer.selections.length =
      state.buffer.selections.length := by
  cases request with
  | cycle =>
    rcases step_cycle_cases h with ⟨first, second, -, hstep⟩ | ⟨result, -, -, hstep⟩
    · rw [hstep]
    · rw [hstep]
      exact List.length_map _
  | _ => rfl

/-- With one selection every run is valid. -/
theorem run_valid_of_single (h : state.buffer.Checked)
    (hone : state.buffer.selections.length = 1) (requests : List Request) :
    state.ValidRun requests := by
  have hinvariant : ∀ done : List Request,
      (state.run done).buffer.Checked ∧
        (state.run done).buffer.selections.length = 1 := by
    intro done
    induction done generalizing state with
    | nil => exact ⟨h, hone⟩
    | cons request rest ih =>
      refine ih ?_ ((length_selections_step h request).trans hone)
      cases request with
      | cycle =>
        obtain ⟨s, hs⟩ := List.length_eq_one_iff.1 hone
        exact (checked_step_cycle_iff h).2 (keepsCuts_of_single h hs)
      | _ => exact h
  exact ⟨fun done _ _ => (hinvariant done).1, fun done request _ _ =>
    step_error (hinvariant done).1 request⟩

end Editing

end TemplateTags
