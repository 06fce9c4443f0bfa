import TickScript.Proofs.Graph.WellFormed
import TickScript.Proofs.Settings.Kinds

/-!
# Kinds that are read again

A kind is written as its tag and its settings. When the members of an object are in key order the
settings stand before the tag, so they are set aside until it is read. A kind that a shape has read is
restored then, unless it has presets; with presets it is refused.
-/

namespace TickScript.Kind

open TickScript.Settings

/-- What a kind has become when it is written and read again. -/
def settled : Kind → Kind
  | .switch settings => .switch settings.settled
  | .return settings => .return settings.settled
  | .search settings => .search settings.settled
  | .move settings => .move settings.settled
  | .harvest settings => .harvest settings.settled
  | .transfer settings => .transfer settings.settled
  | .withdraw settings => .withdraw settings.settled
  | .build settings => .build settings.settled
  | .repair settings => .repair settings.settled
  | .upgrade settings => .upgrade settings.settled
  | .attack settings => .attack settings.settled
  | .heal settings => .heal settings.settled
  | .spawn settings => .spawn settings.settled
  | .memoryRead settings => .memoryRead settings.settled
  | .memoryWrite settings => .memoryWrite settings.settled
  | .memoryDelete settings => .memoryDelete settings.settled
  | .taskCall settings => .taskCall settings.settled
  | kind => kind

/-- Whether a kind is that of a spawn with presets. -/
def hasPresets : Kind → Bool
  | .spawn settings => !settings.presets.isEmpty
  | _ => false

/-! ## Shapes -/

/-- Of the kinds that a shape reads, it reads again all that have no presets, and no others. -/
structure Shape.Sound (shape : Shape) : Prop where
  tagged : shape.Tagged
  restores : ∀ {origin value kind}, value.isProper = true → shape.read origin value = .ok kind →
    kind.hasPresets = false → shape.read .buffered kind.settings.sorted = .ok kind.settled
  refuses : ∀ {origin value kind}, value.isProper = true → shape.read origin value = .ok kind →
    kind.hasPresets = true → ∃ failure, failure.IsNumberKey ∧
      shape.read .buffered kind.settings.sorted = .error failure

theorem Shape.Sound.of_stable {σ : Type} {name : String} {record : Record σ} {wrap : σ → Kind}
    {settle : σ → σ} (h : record.codec.Stable settle)
    (htag : ∀ settings, (wrap settings).tag = name := by exact fun _ => rfl)
    (hsettings : ∀ settings, (wrap settings).settings = record.codec.write settings := by
      exact fun _ => rfl)
    (hsettled : ∀ settings, (wrap settings).settled = wrap (settle settings) := by
      exact fun _ => rfl)
    (hpresets : ∀ settings, (wrap settings).hasPresets = false := by exact fun _ => rfl) :
    (Shape.of name record wrap).Sound := by
  refine ⟨Shape.of_tagged htag, fun {origin value kind} hproper hread _ => ?_,
    fun {origin value kind} _ hread hsome => ?_⟩
  · obtain ⟨settings, hcontent, rfl⟩ := map_eq_ok_iff.1 hread
    change wrap <$> record.codec.read .buffered (wrap settings).settings.sorted = _
    rw [hsettings, h hproper hcontent .buffered, hsettled]
    rfl
  · obtain ⟨settings, -, rfl⟩ := map_eq_ok_iff.1 hread
    rw [hpresets] at hsome
    cases hsome

theorem Shape.Sound.of_spawn : (Shape.of "structure.spawn" Spawn.record .spawn).Sound := by
  refine ⟨Shape.of_tagged fun _ => rfl, fun {origin value kind} hproper hread hnone => ?_,
    fun {origin value kind} hproper hread hsome => ?_⟩
  · obtain ⟨settings, hcontent, rfl⟩ := map_eq_ok_iff.1 hread
    have hempty : settings.presets.isEmpty = true := by simpa [hasPresets] using hnone
    change Kind.spawn <$> Spawn.record.codec.read .buffered
      (Spawn.record.codec.write settings).sorted = _
    rw [Spawn.restores hproper hcontent hempty]
    rfl
  · obtain ⟨settings, hcontent, rfl⟩ := map_eq_ok_iff.1 hread
    have hempty : settings.presets.isEmpty = false := by simpa [hasPresets] using hsome
    obtain ⟨failure, hkey, hfails⟩ := Spawn.refuses hproper hcontent hempty
    refine ⟨failure, hkey, ?_⟩
    change Kind.spawn <$> Spawn.record.codec.read .buffered
      (Spawn.record.codec.write settings).sorted = _
    rw [hfails]
    rfl

theorem taggedShapes_sound : ∀ shape ∈ taggedShapes, shape.Sound := by
  simp only [taggedShapes, shapes, List.cons_append, List.nil_append, List.forall_mem_cons]
  exact ⟨.of_stable stable_empty, .of_stable stable_empty, .of_stable Switch.stable,
    .of_stable Loop.stable, .of_stable stable_empty, .of_stable Tick.stable,
    .of_stable stable_empty, .of_stable stable_empty, .of_stable Return.stable,
    .of_stable stable_empty, .of_stable stable_empty, .of_stable Search.stable,
    .of_stable stable_byId, .of_stable Look.stable, .of_stable Best.stable,
    .of_stable Move.stable, .of_stable Work.stable, .of_stable Transfer.stable,
    .of_stable Withdraw.stable, .of_stable Work.stable, .of_stable Work.stable,
    .of_stable Target.stable, .of_stable Target.stable, .of_stable Target.stable,
    .of_spawn, .of_stable Link.stable, .of_stable Market.stable, .of_stable Tower.stable,
    .of_stable Memory.stable, .of_stable Memory.stable, .of_stable Memory.stable,
    .of_stable TaskDefine.stable, .of_stable TaskCall.stable, .of_stable Custom.stable,
    List.forall_mem_nil _⟩

/-! ## Tags -/

/-- A tag names the shape that has it for a name. -/
theorem tagChoice_ofName {shape : Shape} (h : shape ∈ taggedShapes) :
    tagChoice.ofName shape.name = .ok shape := by
  have hnames : (taggedShapes.map Shape.name).Nodup := by decide
  obtain ⟨before, after, hshapes⟩ := List.append_of_mem h
  have hfind : (tagChoice.all.find? fun found =>
      (tagChoice.name found :: tagChoice.aliases found).contains shape.name) = some shape := by
    refine List.find?_eq_some_iff_append.2 ⟨?_, before, after, hshapes, fun other hother => ?_⟩
    · exact List.contains_iff_mem.2 List.mem_cons_self
    · rw [hshapes, List.map_append, List.nodup_append] at hnames
      have hne : other.name ≠ shape.name :=
        hnames.2.2 _ (List.mem_map_of_mem hother) _ (List.mem_map_of_mem List.mem_cons_self)
      simpa [tagChoice] using hne.symm
  exact Choice.ofName_of_find (by rw [hfind]; rfl)

/-- The settings of a kind come before its tag when members are in order. -/
theorem sorted_write (kind : Kind) : (codec.write kind).sorted =
    .object [("config", kind.settings.sorted), ("kind", .text kind.tag)] := by
  have horder : compare "config" "kind" = .lt := by decide
  change Json.Value.ofMembers [("kind", .text kind.tag), ("config", kind.settings.sorted)] = _
  simp [Json.Value.ofMembers, insertEntry, horder]

variable {kind : Kind} {again : Origin}

/-- A kind that was read by a shape. -/
def IsRead (kind : Kind) : Prop :=
  ∃ shape ∈ taggedShapes, ∃ origin value, value.isProper = true ∧ shape.read origin value = .ok kind

/-- The defaults of a kind are what is read from an empty object. -/
theorem isRead_blank {shape : Shape} (h : shape ∈ shapes) : shape.blank.IsRead := by
  have hblank : ∀ shape ∈ shapes, shape.read .direct (.object []) = .ok shape.blank := by
    simp only [shapes, List.forall_mem_cons]
    and_intros
    all_goals first | rfl | exact List.forall_mem_nil _
  exact ⟨shape, List.mem_append_left _ h, .direct, .object [], rfl, hblank shape h⟩

/-- A custom kind is read from its name and its settings. -/
theorem isRead_custom {settings : Json.Value} (h : settings.isProper = true) (name : String) :
    (Kind.custom ⟨name, settings⟩).IsRead := by
  refine ⟨customShape, List.mem_append_right _ List.mem_cons_self, .direct,
    .object [("kind", .text name), ("settings", settings)], ?_, rfl⟩
  have horder : compare "kind" "settings" = .lt := by decide
  refine Json.Value.isProper_object_iff.2 ⟨by simp [Ascending, horder], ?_⟩
  simp [h, Json.Value.isProper]

/-- A kind that is written is read by the shape of its tag, from settings that were set aside. -/
theorem read_write {shape : Shape} (hshape : shape ∈ taggedShapes) (htag : kind.tag = shape.name) :
    codec.read again (codec.write kind).sorted = shape.read .buffered kind.settings.sorted := by
  rw [sorted_write, htag]
  change (do
    let shape ← tagChoice.ofName shape.name
    shape.read .buffered kind.settings.sorted) = _
  rw [tagChoice_ofName hshape]
  rfl

theorem IsRead.restores (h : kind.IsRead) (hpresets : kind.hasPresets = false) :
    codec.Restores again settled kind := by
  obtain ⟨shape, hshape, origin, value, hproper, hread⟩ := h
  have hsound := taggedShapes_sound shape hshape
  unfold Codec.Restores
  rw [read_write hshape (hsound.tagged.read _ _ _ hread)]
  exact hsound.restores hproper hread hpresets

theorem IsRead.refuses (h : kind.IsRead) (hpresets : kind.hasPresets = true) :
    codec.Refuses again kind := by
  obtain ⟨shape, hshape, origin, value, hproper, hread⟩ := h
  have hsound := taggedShapes_sound shape hshape
  unfold Codec.Refuses
  rw [read_write hshape (hsound.tagged.read _ _ _ hread)]
  exact hsound.refuses hproper hread hpresets

end TickScript.Kind
