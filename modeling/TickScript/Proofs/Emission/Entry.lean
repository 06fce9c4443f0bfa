import TickScript.Proofs.Emission.Calls
import TickScript.Proofs.Walk.Constructs

/-!
# Entries of checked programs

The check of a program compares the entry with the id that the start node carries, and the walk
looks the entry up among the keys of the table. `checked_entry_found_iff` says what the check
ensures, and that the walk finds the start node exactly if this node stands in the table under its
own id. Where nothing stands under the entry, the main function is empty.
-/

namespace TickScript

namespace Program

variable {program : Program}

/-- The start nodes of the table, with their keys. -/
def startEntries (program : Program) : List (String × Node) :=
  program.nodes.entries.filter fun entry => isStart entry.2.kind

theorem starts_eq_map (program : Program) :
    program.starts = program.startEntries.map fun entry => entry.2.id := by
  unfold starts startEntries Keyed.values
  rw [List.filter_map, List.map_map]
  rfl

theorem isStart_iff {kind : Kind} : isStart kind = true ↔ kind = .start := by
  cases kind <;> simp [isStart]

/-- A start node stands in the table of a program whose entry has no defect. It carries the id of
the entry, and there is no other one. -/
theorem exists_startEntry (h : program.starts = [program.entry]) :
    ∃ key node, program.startEntries = [(key, node)] ∧ node.id = program.entry := by
  rw [starts_eq_map, List.map_eq_singleton_iff] at h
  obtain ⟨⟨key, node⟩, hentries, hid⟩ := h
  exact ⟨key, node, hentries, hid⟩

/-- The only start node is found under the entry exactly if the entry is its key. -/
theorem entry_found_iff {key : String} {start : Node}
    (hentries : program.startEntries = [(key, start)]) :
    (∃ node, program.node? program.entry = some node ∧ node.kind = .start) ↔
      key = program.entry := by
  constructor
  · rintro ⟨node, hnode, hkind⟩
    have hmem : (program.entry, node) ∈ program.startEntries :=
      List.mem_filter.2 ⟨Keyed.mem_entries_of_get? hnode, isStart_iff.2 hkind⟩
    rw [hentries, List.mem_singleton] at hmem
    exact (Prod.mk.inj hmem).1.symm
  · rintro rfl
    have hmem : (program.entry, start) ∈ program.startEntries := by simp [hentries]
    obtain ⟨hentry, hkind⟩ := List.mem_filter.1 hmem
    exact ⟨start, Keyed.get?_of_mem hentry, isStart_iff.1 hkind⟩

end Program

namespace Emission

namespace Walk

variable {setting : Setting} {entry : String}

/-- What was noted before a tour is still noted after it. -/
theorem Tour.mem_trace {ids : List String} {state final : State} {event : Event}
    (h : Tour setting ids state final) (hevent : event ∈ state.trace) : event ∈ final.trace := by
  obtain ⟨marks, hstretch, -⟩ := h.stretch
  unfold State.trace at hevent ⊢
  rw [hstretch.passage.journal, List.map_append]
  exact List.mem_append_right _ hevent

/-- A walk writes the node under its entry. -/
theorem entry_mem_dispatched {node : Node} (hnode : setting.table.get? entry = some node)
    (context : Context) :
    entry ∈ dispatched (after (walk setting entry) { context }).trace := by
  let opened := (State.enter { context } entry).opened setting entry node
  have hfits : Fits setting.table setting.table.size opened :=
    (Fits.start setting.table context).enter hnode List.not_mem_nil
  obtain ⟨heads, -, hbody⟩ := @dispatch_tours setting node setting.table.size _
    (visit_tours setting setting.table.size) opened hfits
  have hbegan : .began entry (sharedAfter setting [entry] node) ∈ opened.trace := List.mem_cons_self
  have hrest (continuation : Continuation) := (visit_tours setting setting.table.size).chains
    (continuation.followers node (sharedAfter setting [entry] node))
    (show Fits setting.table setting.table.size ((after (dispatch setting _ node) opened).resume
      entry continuation []) from hbody.fits hfits)
  -- What was noted at the start stays through the slots and the nodes that follow.
  refine mem_dispatched.2 ⟨sharedAfter setting [entry] node, ?_⟩
  unfold walk
  rw [after_visit, if_neg List.not_mem_nil, if_neg List.not_mem_nil, hnode]
  dsimp only
  rw [after_write_eq]
  refine List.mem_cons_of_mem _ ((hrest _).mem_trace ?_)
  exact List.mem_cons_of_mem _ (hbody.mem_trace hbegan)

/-- A walk from an id that the table does not have only notes that it was there. -/
theorem after_walk_of_missing (hnode : setting.table.get? entry = none) (context : Context) :
    after (walk setting entry) { context } =
      (State.enter { context } entry).note (.left entry) := by
  unfold walk
  rw [after_visit, if_neg List.not_mem_nil, if_neg List.not_mem_nil, hnode]

end Walk

open Program in
/-- A program that has been checked has one start node, which carries the id of the entry; its tasks
have different names, and every call names one of them. The start node is found under the entry
exactly if it stands in the table under its own id, as it does if all nodes do. The walk of the main
function writes the node under the entry, and if there is none, the main function is empty. -/
theorem checked_entry_found_iff (program : Program) (registry : Registry)
    (h : program.defects = []) :
    (program.tasks.map (·.name)).Nodup ∧
    (∀ node ∈ program.nodes.values, ∀ task, calledTask? node.kind = some task →
      task ∈ program.tasks.map (·.name)) ∧
    (∃ key start, (key, start) ∈ program.nodes.entries ∧ start.kind = .start ∧
      start.id = program.entry ∧
      (∀ other node, (other, node) ∈ program.nodes.entries → node.kind = .start →
        other = key ∧ node = start) ∧
      ((∃ node, program.node? program.entry = some node ∧ node.kind = .start) ↔
        key = start.id)) ∧
    ((∀ entry ∈ program.nodes.entries, entry.2.id = entry.1) →
      ∃ node, program.node? program.entry = some node ∧ node.kind = .start) ∧
    let main := Walk.after (Walk.walk ⟨program.nodes, registry⟩ program.entry) {}
    ((functions program registry).1.body = main.context.lines) ∧
    ((program.node? program.entry).isSome ↔ program.entry ∈ Walk.dispatched main.trace) ∧
    (program.node? program.entry = none → (functions program registry).1.body = []) := by
  obtain ⟨hstarts, hnames, hcalls⟩ := defects_eq_nil_iff.1 h
  obtain ⟨key, start, hentries, hid⟩ := exists_startEntry hstarts
  have hmem : (key, start) ∈ program.startEntries := by simp [hentries]
  obtain ⟨hentry, hkind⟩ := List.mem_filter.1 hmem
  have hfound := entry_found_iff hentries
  let setting : Setting := ⟨program.nodes, registry⟩
  refine ⟨hnames, hcalls, ⟨key, start, hentry, isStart_iff.1 hkind, hid, ?_, ?_⟩, ?_, rfl, ?_, ?_⟩
  · intro other node hother hstart
    have hother : (other, node) ∈ program.startEntries :=
      List.mem_filter.2 ⟨hother, isStart_iff.2 hstart⟩
    rw [hentries, List.mem_singleton] at hother
    exact Prod.mk.inj hother
  · rw [hid]
    exact hfound
  · intro hkeys
    have hkey : start.id = key := hkeys _ hentry
    exact hfound.2 (hkey.symm.trans hid)
  · cases hnode : program.node? program.entry with
    | none =>
        rw [@Walk.after_walk_of_missing setting _ hnode]
        exact iff_of_false (by simp) (by simp [Walk.dispatched, Walk.State.trace, Walk.State.enter,
          Walk.State.note])
    | some node => exact iff_of_true rfl (@Walk.entry_mem_dispatched setting _ _ hnode {})
  · intro hnode
    show (Walk.after (Walk.walk setting program.entry) {}).context.lines = []
    rw [@Walk.after_walk_of_missing setting _ hnode]
    rfl

/-- A start node under its own id, and a node that stands under another id than its own. -/
def misfiledJob : Program where
  fileId := "job"
  entry := "start"
  nodes := .ofList [
    ("start", { id := "start", kind := .start, outputs := ["job"] }),
    ("job", { id := "up", kind := .upgrade {} })]

/-- The start node is found, and so is the other node from there. -/
theorem misfiledJob_walked :
    misfiledJob.defects = [] ∧
      (∃ node, misfiledJob.node? misfiledJob.entry = some node ∧ node.kind = .start) ∧
      (functions misfiledJob .empty).1.body =
        [⟨0, "const upgrade_1 = creep.upgradeController(creep.room.controller);"⟩] := by
  have hdefects : misfiledJob.defects = [] := by decide +kernel
  obtain ⟨-, -, ⟨key, start, hentry, hkind, -, -, hfound⟩, -⟩ :=
    checked_entry_found_iff misfiledJob .empty hdefects
  have hkeys : ∀ entry ∈ misfiledJob.nodes.entries, Program.isStart entry.2.kind = true →
      entry.1 = entry.2.id := by
    decide +kernel
  have hkey : key = start.id := hkeys _ hentry (Program.isStart_iff.2 hkind)
  exact ⟨hdefects, hfound.2 hkey, by decide +kernel⟩

/-- A start node that stands under another id than its own. -/
def misfiledStart : Program where
  fileId := "misfiled"
  entry := "start"
  nodes := .ofList [
    ("begin", { id := "start", kind := .start, outputs := ["up"] }),
    ("up", { id := "up", kind := .upgrade {} })]

/-- The program passes its check, and nothing of it is written, without a warning. -/
theorem misfiledStart_not_walked :
    misfiledStart.defects = [] ∧ (misfiledStart.node? misfiledStart.entry).isNone = true ∧
      (functions misfiledStart .empty).1.body = [] ∧
      (assemble misfiledStart .empty).warnings = [] := by
  decide +kernel

end Emission

end TickScript
