import TickScript.Kind
import TickScript.Proofs.Settings.Fields

/-!
# Settings that are read again

`settled` says what the settings of a kind have become when they are written and read again: a literal
that was undefined is null, and all else is as it was. The records of all kinds but spawns are stable.
A spawn is restored if it has no presets and is refused if it has some, since the levels of presets are
keys that cannot be read from contents that were set aside.
-/

namespace TickScript.Kind

open TickScript.Settings TickScript.Settings.Codec

variable {origin again : Origin} {value : Json.Value}

/-! ## Flow -/

theorem stable_empty : emptyRecord.codec.Stable id :=
  Record.stable .nil .nil (fun _ => rfl) .nil

def SwitchCase.settled (case : SwitchCase) : SwitchCase := { case with value := case.value.settled }

theorem SwitchCase.stable : record.codec.Stable settled :=
  Record.stable (by decide) (by simp [Part.apart_iff]) (by rintro ⟨⟩; rfl) <|
    .cons (.defaulted stable_literal (fun _ _ => rfl) fun _ => rfl) .nil

def Switch.settled (switch : Switch) : Switch :=
  { switch with cases := switch.cases.map SwitchCase.settled }

theorem Switch.stable : record.codec.Stable settled :=
  Record.stable (by decide) (by simp [Part.apart_iff]) (by rintro ⟨⟩; rfl) <|
    .cons (.defaulted SwitchCase.stable.list (fun _ _ => rfl) fun _ => rfl) .nil

theorem LoopMode.named : choice.Named := Choice.named_of_find fun mode => by cases mode <;> rfl

theorem Loop.stable : record.codec.Stable id :=
  Record.stable (by decide) (by simp [Part.apart_iff]) (by rintro ⟨⟩; rfl) <|
    .cons (.choice LoopMode.named fun _ _ => rfl) <|
    .cons (.optional stable_signed64 solid_signed64 (fun _ _ => rfl) rfl) <|
    .cons (.optional stable_text solid_text (fun _ _ => rfl) rfl) .nil

theorem TickMode.named : choice.Named := Choice.named_of_find fun mode => by cases mode <;> rfl

theorem Tick.stable : record.codec.Stable id :=
  Record.stable (by decide) (by simp [Part.apart_iff]) (by rintro ⟨⟩; rfl) <|
    .cons (.defaulted stable_signed64 (fun _ _ => rfl) fun _ => rfl) <|
    .cons (.defaulted stable_signed64 (fun _ _ => rfl) fun _ => rfl) <|
    .cons (.choice TickMode.named fun _ _ => rfl) .nil

def Return.settled (settings : Return) : Return :=
  { settings with value := settings.value.settled }

theorem Return.stable : record.codec.Stable settled :=
  Record.stable (by decide) (by simp [Part.apart_iff]) (by rintro ⟨⟩; rfl) <|
    .cons (.defaulted stable_literal (fun _ _ => rfl) fun _ => rfl) .nil

/-! ## Queries -/

theorem SearchMode.named : choice.Named := Choice.named_of_find fun mode => by cases mode <;> rfl

theorem Comparison.named : choice.Named := Choice.named_of_find fun op => by cases op <;> rfl

def Filter.settled (filter : Filter) : Filter := { filter with value := filter.value.settled }

theorem Filter.stable : record.codec.Stable settled :=
  Record.stable (by decide) (by simp [Part.apart_iff]) (by rintro ⟨⟩; rfl) <|
    .cons (.optional stable_text solid_text (fun _ _ => rfl) rfl) <|
    .cons (.optional (Choice.stable_codec Comparison.named) Choice.solid_codec
      (fun _ _ => rfl) rfl) <|
    .cons (.defaulted stable_literal (fun _ _ => rfl) fun _ => rfl) .nil

def Search.settled (search : Search) : Search :=
  { search with filters := search.filters.map Filter.settled }

theorem Search.stable : record.codec.Stable settled :=
  Record.stable (by decide) (by simp [Part.apart_iff]) (by rintro ⟨⟩; rfl) <|
    .cons (.defaulted stable_text (fun _ _ => rfl) fun _ => rfl) <|
    .cons (.defaulted Filter.stable.list (fun _ _ => rfl) fun _ => rfl) <|
    .cons (.optional stable_unsigned32 solid_unsigned32 (fun _ _ => rfl) rfl) <|
    .cons (.choice SearchMode.named fun _ _ => rfl) .nil

theorem stable_byId : ById.record.codec.Stable id :=
  Record.stable (by decide) (by simp [Part.apart_iff]) (by rintro ⟨⟩; rfl) <|
    .cons (.optional stable_text solid_text (fun _ _ => rfl) rfl) .nil

theorem LookMode.named : choice.Named := Choice.named_of_find fun mode => by cases mode <;> rfl

theorem Look.stable : record.codec.Stable id :=
  Record.stable (by decide) (by simp [Part.apart_iff]) (by rintro ⟨⟩; rfl) <|
    .cons (.defaulted stable_text (fun _ _ => rfl) fun _ => rfl) <|
    .cons (.defaulted stable_unsigned32 (fun _ _ => rfl) fun _ => rfl) <|
    .cons (.choice LookMode.named fun _ _ => rfl) .nil

theorem BestStrategy.named : choice.Named :=
  Choice.named_of_find fun strategy => by cases strategy <;> rfl

theorem Best.stable : record.codec.Stable id :=
  Record.stable (by decide) (by simp [Part.apart_iff]) (by rintro ⟨⟩; rfl) <|
    .cons (.choice BestStrategy.named fun _ _ => rfl) <|
    .cons (.optional stable_text solid_text (fun _ _ => rfl) rfl) .nil

/-! ## Actions -/

def Move.settled (move : Move) : Move := { move with target := move.target.settled }

theorem Move.stable : record.codec.Stable settled :=
  Record.stable (by decide) (by simp [Part.apart_iff]) (by rintro ⟨⟩; rfl) <|
    .cons (.defaulted stable_literal (fun _ _ => rfl) fun _ => rfl) <|
    .cons (.optional stable_unsigned32 solid_unsigned32 (fun _ _ => rfl) rfl) .nil

def Work.settled (work : Work) : Work := { work with target := work.target.settled }

theorem Work.stable : record.codec.Stable settled :=
  Record.stable (by decide) (by simp [Part.apart_iff]) (by rintro ⟨⟩; rfl) <|
    .cons (.defaulted stable_literal (fun _ _ => rfl) fun _ => rfl) <|
    .cons (.defaulted stable_boolean (fun _ _ => rfl) fun _ => rfl) .nil

theorem TransferFallback.named : choice.Named :=
  Choice.named_of_find fun fallback => by cases fallback <;> rfl

def Transfer.settled (transfer : Transfer) : Transfer :=
  { transfer with target := transfer.target.settled }

theorem Transfer.stable : record.codec.Stable settled :=
  Record.stable (by decide) (by simp [Part.apart_iff]) (by rintro ⟨⟩; rfl) <|
    .cons (.defaulted stable_literal (fun _ _ => rfl) fun _ => rfl) <|
    .cons (.defaulted stable_text (fun _ _ => rfl) fun _ => rfl) <|
    .cons (.optional stable_unsigned32 solid_unsigned32 (fun _ _ => rfl) rfl) <|
    .cons (.choice TransferFallback.named fun _ _ => rfl) .nil

def Withdraw.settled (withdraw : Withdraw) : Withdraw :=
  { withdraw with target := withdraw.target.settled }

theorem Withdraw.stable : record.codec.Stable settled :=
  Record.stable (by decide) (by simp [Part.apart_iff]) (by rintro ⟨⟩; rfl) <|
    .cons (.defaulted stable_literal (fun _ _ => rfl) fun _ => rfl) <|
    .cons (.defaulted stable_text (fun _ _ => rfl) fun _ => rfl) <|
    .cons (.optional stable_unsigned32 solid_unsigned32 (fun _ _ => rfl) rfl) .nil

def Target.settled (settings : Target) : Target :=
  { settings with target := settings.target.settled }

theorem Target.stable : record.codec.Stable settled :=
  Record.stable (by decide) (by simp [Part.apart_iff]) (by rintro ⟨⟩; rfl) <|
    .cons (.defaulted stable_literal (fun _ _ => rfl) fun _ => rfl) .nil

/-! ## Structures -/

theorem BodyPart.named : choice.Named := Choice.named_of_find fun part => by cases part <;> rfl

theorem BodyStrategy.named : choice.Named :=
  Choice.named_of_find fun strategy => by cases strategy <;> rfl

namespace Spawn

variable {spawn : Spawn}

def settled (spawn : Spawn) : Spawn := { spawn with memory := spawn.memory.settled }

/-- The bodies for each level. -/
def presetsPart : Settings.Part Spawn where
  Content := Keyed Nat (List BodyPart)
  codec := .keyed .unsigned32 (.list BodyPart.choice.codec)
  get := (·.presets)
  set := fun record presets => { record with presets }
  settle := id

/-- A spawn is made of its presets and of parts that are restored. -/
theorem exists_parts : ∃ parts, record.Made parts ∧ presetsPart ∈ parts ∧
    (∀ part ∈ parts, part ∈ [presetsPart] ∨ part.codec.Stable part.settle) ∧
      ∀ spawn, parts.foldl (fun target part => part.copy spawn target) record.blank =
        settled spawn := by
  obtain ⟨hmade, hsteady⟩ := Record.made_of_keeps record [presetsPart] (by decide)
    (by simp [Part.apart_iff]) <|
    .cons (.optional stable_text solid_text (fun _ _ => rfl) rfl) <|
    .cons (.defaulted stable_text (fun _ _ => rfl) fun _ => rfl) <|
    .cons (.choice BodyStrategy.named fun _ _ => rfl) <|
    .cons (.defaulted (Choice.stable_codec BodyPart.named).list_id (fun _ _ => rfl)
      fun _ => .list_id fun _ _ => Choice.restores_codec BodyPart.named _ _) <|
    .cons (.defaulted (stable_unsigned32.keyed_id (Key.faithful_choice BodyPart.named))
      (fun _ _ => rfl) fun _ => rfl) <|
    .cons (.defaulted stable_unsigned32 (fun _ _ => rfl) fun _ => rfl) <|
    .cons (.excepted List.mem_cons_self (fun _ _ => rfl) fun _ => rfl) <|
    .cons (.optional stable_unsigned32 solid_unsigned32 (fun _ _ => rfl) rfl) <|
    .cons (.defaulted stable_literal (fun _ _ => rfl) fun _ => rfl) .nil
  exact ⟨_, hmade, by simp [presetsPart], hsteady, by rintro ⟨⟩; rfl⟩

/-- A spawn without presets is restored. -/
theorem restores (hproper : value.isProper = true) (hread : record.codec.read origin value = .ok spawn)
    (hpresets : spawn.presets.isEmpty = true) (again : Origin) :
    record.codec.Restores again settled spawn := by
  obtain ⟨parts, hmade, -, hsteady, hsettle⟩ := exists_parts
  unfold Codec.Restores
  rw [hmade.read_restored fun part hpart => ?_, hsettle]
  rcases hsteady part hpart with hloose | hstable
  · obtain rfl := List.mem_singleton.1 hloose
    have hempty : spawn.presets = .empty := Keyed.ext (List.isEmpty_iff.1 hpresets)
    unfold Part.Restored
    rw [show presetsPart.get spawn = Keyed.empty from hempty]
    rfl
  · exact hmade.kept_of_read hproper hread part hpart hstable again

/-- A spawn with presets is refused after its settings were set aside. -/
theorem refuses (hproper : value.isProper = true) (hread : record.codec.read origin value = .ok spawn)
    (hpresets : spawn.presets.isEmpty = false) : record.codec.Refuses .buffered spawn := by
  obtain ⟨parts, hmade, hmem, hsteady, -⟩ := exists_parts
  have hrefuses : presetsPart.codec.Refuses .buffered (presetsPart.get spawn) :=
    refuses_unsigned32 _ hpresets
  refine hmade.refuses (fun part hpart => ?_) ⟨presetsPart, hmem, hrefuses⟩
  rcases hsteady part hpart with hloose | hstable
  · obtain rfl := List.mem_singleton.1 hloose
    exact .inr hrefuses
  · exact .inl (hmade.kept_of_read hproper hread part hpart hstable .buffered)

end Spawn

theorem Link.stable : record.codec.Stable id :=
  Record.stable (by decide) (by simp [Part.apart_iff]) (by rintro ⟨⟩; rfl) <|
    .cons (.optional stable_text solid_text (fun _ _ => rfl) rfl) <|
    .cons (.optional stable_text solid_text (fun _ _ => rfl) rfl) <|
    .cons (.optional stable_unsigned32 solid_unsigned32 (fun _ _ => rfl) rfl) .nil

theorem MarketMode.named : choice.Named := Choice.named_of_find fun mode => by cases mode <;> rfl

theorem Market.stable : record.codec.Stable id :=
  Record.stable (by decide) (by simp [Part.apart_iff]) (by rintro ⟨⟩; rfl) <|
    .cons (.choice MarketMode.named fun _ _ => rfl) <|
    .cons (.defaulted stable_text (fun _ _ => rfl) fun _ => rfl) <|
    .cons (.optional stable_number solid_number (fun _ _ => rfl) rfl) <|
    .cons (.optional stable_unsigned32 solid_unsigned32 (fun _ _ => rfl) rfl) <|
    .cons (.optional stable_text solid_text (fun _ _ => rfl) rfl) .nil

theorem TowerAction.named : choice.Named :=
  Choice.named_of_find fun action => by cases action <;> rfl

theorem Tower.stable : record.codec.Stable id :=
  Record.stable (by decide) (by simp [Part.apart_iff]) (by rintro ⟨⟩; rfl) <|
    .cons (.defaulted (Choice.stable_codec TowerAction.named).list_id (fun _ _ => rfl)
      fun _ => .list_id fun _ _ => Choice.restores_codec TowerAction.named _ _) <|
    .cons (.defaulted stable_number (fun _ _ => rfl)
      fun _ => restores_number (by decide +kernel)) <|
    .cons (.defaulted stable_number (fun _ _ => rfl)
      fun _ => restores_number (by decide +kernel)) <|
    .cons (.defaulted stable_unsigned32 (fun _ _ => rfl) fun _ => rfl) .nil

/-! ## Memory and tasks -/

theorem MemoryScope.named : choice.Named := Choice.named_of_find fun scope => by cases scope <;> rfl

def Memory.settled (memory : Memory) : Memory :=
  { memory with default := memory.default.settled, value := memory.value.settled }

theorem Memory.stable : record.codec.Stable settled :=
  Record.stable (by decide) (by simp [Part.apart_iff]) (by rintro ⟨⟩; rfl) <|
    .cons (.choice MemoryScope.named fun _ _ => rfl) <|
    .cons (.defaulted stable_text (fun _ _ => rfl) fun _ => rfl) <|
    .cons (.defaulted stable_literal (fun _ _ => rfl) fun _ => rfl) <|
    .cons (.defaulted stable_literal (fun _ _ => rfl) fun _ => rfl) <|
    .cons (.defaulted stable_boolean (fun _ _ => rfl) fun _ => rfl) .nil

theorem TaskParam.stable : record.codec.Stable id :=
  Record.stable (by decide) (by simp [Part.apart_iff]) (by rintro ⟨⟩; rfl) <|
    .cons (.defaulted stable_text (fun _ _ => rfl) fun _ => rfl) <|
    .cons (.defaulted stable_text (fun _ _ => rfl) fun _ => rfl) <|
    .cons (.optional stable_literal_id solid_literal (fun _ _ => rfl) rfl) .nil

theorem TaskDefine.stable : record.codec.Stable id :=
  Record.stable (by decide) (by simp [Part.apart_iff]) (by rintro ⟨⟩; rfl) <|
    .cons (.optional stable_text solid_text (fun _ _ => rfl) rfl) <|
    .cons (.defaulted TaskParam.stable.list_id (fun _ _ => rfl) fun _ => rfl) .nil

/-- The parameters of a definition are restored by themselves. -/
theorem TaskDefine.restores_params {settings : TaskDefine} (hproper : value.isProper = true)
    (hread : record.codec.read origin value = .ok settings) (again : Origin) :
    (Codec.list TaskParam.record.codec).Restores again id settings.params := by
  obtain ⟨hmade, -⟩ := Record.made_of_keeps record [] (by decide) (by simp [Part.apart_iff]) <|
    .cons (.optional stable_text solid_text (fun _ _ => rfl) rfl) <|
    .cons (.defaulted TaskParam.stable.list_id (fun _ _ => rfl) fun _ => rfl) .nil
  exact hmade.kept_of_read hproper hread _ (.tail _ (.head _)) TaskParam.stable.list_id again

def TaskCall.settled (call : TaskCall) : TaskCall := { call with args := call.args.settled }

theorem TaskCall.stable : record.codec.Stable settled :=
  Record.stable (by decide) (by simp [Part.apart_iff]) (by rintro ⟨⟩; rfl) <|
    .cons (.optional stable_text solid_text (fun _ _ => rfl) rfl) <|
    .cons (.defaulted stable_literal (fun _ _ => rfl) fun _ => rfl) .nil

theorem Custom.stable : record.codec.Stable id :=
  Record.stable (by decide) (by simp [Part.apart_iff]) (by rintro ⟨⟩; rfl) <|
    .cons (.required stable_text (fun _ _ => rfl) fun _ => rfl) <|
    .cons (.required stable_value (fun _ _ => rfl) fun _ => rfl) .nil

end TickScript.Kind
