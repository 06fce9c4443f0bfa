import Mathlib.Data.List.Pairwise
import TickScript.Proofs.Settings.Stable
import TickScript.Settings.Record

/-!
# Records that read what they wrote

A record is made of parts, each handled by one field. Fields have names of their own and parts do not
meet, so it makes no difference in which order fields are read (`Made.read_written`). A record is
stable if the codecs of its fields are (`stable`), and it is refused if one of its parts is
(`Made.refuses`).
-/

namespace TickScript.Settings

open TickScript.Json (Value)

variable {σ : Type}

/-- Lists whose items are related one by one are the two sides of a list of pairs. -/
theorem exists_pairs {α β : Type*} {related : α → β → Prop} {firsts : List α} {seconds : List β}
    (h : List.Forall₂ related firsts seconds) :
    ∃ pairs : List (α × β), pairs.map Prod.fst = firsts ∧ pairs.map Prod.snd = seconds ∧
      ∀ pair ∈ pairs, related pair.1 pair.2 := by
  have hlength := h.length_eq
  exact ⟨firsts.zip seconds, List.map_fst_zip (by omega), List.map_snd_zip (by omega),
    fun _ hpair => List.forall₂_zip h hpair⟩

/-- A part of a record type: a content that is taken out and put in, how it is written, and what it
has become when it is read again. -/
structure Part (σ : Type) where
  Content : Type
  codec : Codec Content
  get : σ → Content
  set : σ → Content → σ
  settle : Content → Content

namespace Part

/-- Put the settled content of one record into another. -/
def copy (part : Part σ) (source target : σ) : σ := part.set target (part.settle (part.get source))

/-- Two parts do not meet: what is put into one is not in the other. -/
structure Apart (first second : Part σ) : Prop where
  left : ∀ record content, first.get (second.set record content) = first.get record
  right : ∀ record content, second.get (first.set record content) = second.get record
  commute : ∀ record content other,
    first.set (second.set record other) content = second.set (first.set record content) other

instance : Std.Symm (@Apart σ) where
  symm _ _ h := ⟨h.right, h.left, fun record content other => (h.commute record other content).symm⟩

theorem apart_iff {first second : Part σ} : first.Apart second ↔
    (∀ record content, first.get (second.set record content) = first.get record) ∧
      (∀ record content, second.get (first.set record content) = second.get record) ∧
        ∀ record content other,
          first.set (second.set record other) content = second.set (first.set record content) other :=
  ⟨fun h => ⟨h.left, h.right, h.commute⟩, fun h => ⟨h.1, h.2.1, h.2.2⟩⟩

/-- The content of a part is restored. -/
def Restored (part : Part σ) (again : Origin) (record : σ) : Prop :=
  part.codec.Restores again part.settle (part.get record)

end Part

/-- A field reads and writes a part, and what it is when nothing is read is restored. -/
structure Field.Handles (blank : σ) (field : Field σ) (part : Part σ) : Prop where
  load : ∀ origin value, field.load origin value =
    (fun content record => part.set record content) <$> part.codec.read origin value
  save : ∀ record, field.save record = part.codec.write (part.get record)
  get_set : ∀ record content, part.get (part.set record content) = content
  blank : ∀ again, part.Restored again blank

namespace Field

variable {α : Type} {name : String} {codec : Codec α} {get : σ → α} {set : σ → α → σ}
  {aliases : List String} {blank : σ} {settle : α → α}

theorem handles_defaulted (hset : ∀ record content, get (set record content) = content)
    (hblank : ∀ again, codec.Restores again settle (get blank)) :
    Handles blank (defaulted name codec get set aliases) ⟨α, codec, get, set, settle⟩ :=
  ⟨fun _ _ => rfl, fun _ => rfl, hset, hblank⟩

theorem handles_required (hset : ∀ record content, get (set record content) = content)
    (hblank : ∀ again, codec.Restores again settle (get blank)) :
    Handles blank (required name codec get set aliases) ⟨α, codec, get, set, settle⟩ :=
  ⟨fun _ _ => rfl, fun _ => rfl, hset, hblank⟩

/-- A field keeps its part if it handles it and if what is read is restored. The parts of a list are
excepted. -/
structure Keeps (blank : σ) (loose : List (Part σ)) (field : Field σ) (part : Part σ) : Prop
    extends Handles blank field part where
  steady : part ∈ loose ∨ part.codec.Stable part.settle

theorem Keeps.excepted {loose : List (Part σ)}
    (hmem : (⟨α, codec, get, set, settle⟩ : Part σ) ∈ loose)
    (hset : ∀ record content, get (set record content) = content)
    (hblank : ∀ again, codec.Restores again settle (get blank)) :
    Keeps blank loose (Field.defaulted name codec get set aliases) ⟨α, codec, get, set, settle⟩ :=
  ⟨handles_defaulted hset hblank, .inl hmem⟩

theorem Keeps.defaulted {loose : List (Part σ)} (hstable : codec.Stable settle)
    (hset : ∀ record content, get (set record content) = content)
    (hblank : ∀ again, codec.Restores again settle (get blank)) :
    Keeps blank loose (Field.defaulted name codec get set aliases) ⟨α, codec, get, set, settle⟩ :=
  ⟨handles_defaulted hset hblank, .inr hstable⟩

theorem Keeps.choice {loose : List (Part σ)} {choice : Choice α} (h : choice.Named)
    (hset : ∀ record content, get (set record content) = content) :
    Keeps blank loose (Field.defaulted name choice.codec get set aliases)
      ⟨α, choice.codec, get, set, id⟩ :=
  .defaulted (Choice.stable_codec h) hset fun again => Choice.restores_codec h again _

theorem Keeps.optional {loose : List (Part σ)} {get : σ → Option α} {set : σ → Option α → σ}
    (hstable : codec.Stable id) (hsolid : codec.Solid)
    (hset : ∀ record content, get (set record content) = content) (hblank : get blank = none) :
    Keeps blank loose (Field.defaulted name (.optional codec) get set aliases)
      ⟨Option α, .optional codec, get, set, id⟩ := by
  refine .defaulted (hstable.optional_id hsolid) hset fun again => ?_
  rw [hblank]
  rfl

theorem Keeps.required {loose : List (Part σ)} (hstable : codec.Stable settle)
    (hset : ∀ record content, get (set record content) = content)
    (hblank : ∀ again, codec.Restores again settle (get blank)) :
    Keeps blank loose (Field.required name codec get set aliases) ⟨α, codec, get, set, settle⟩ :=
  ⟨handles_required hset hblank, .inr hstable⟩

variable {field : Field σ} {part : Part σ} {origin again : Origin} {value : Value} {record : σ}

/-- What a field does to a record is to put a content into its part. -/
theorem Handles.eq_set (h : field.Handles blank part) {change : σ → σ}
    (hload : field.load origin value = .ok change) :
    ∃ content, part.codec.read origin value = .ok content ∧
      change = fun record => part.set record content := by
  rw [h.load] at hload
  obtain ⟨content, hcontent, rfl⟩ := map_eq_ok_iff.1 hload
  exact ⟨content, hcontent, rfl⟩

/-- A field reads its part again. -/
theorem Handles.load_save (h : field.Handles blank part) (hrestored : part.Restored again record) :
    field.load again (field.save record).sorted = .ok (part.copy record) := by
  unfold Part.Restored Codec.Restores at hrestored
  rw [h.load, h.save, hrestored]
  rfl

end Field

namespace Record

variable {record : Record σ} {parts : List (Part σ)} {content : σ} {origin again : Origin}
  {value : Value}

/-- A record type is made of parts. -/
structure Made (record : Record σ) (parts : List (Part σ)) : Prop where
  handles : List.Forall₂ (Field.Handles record.blank) record.fields parts
  named : record.fields.Pairwise fun first second =>
    first.answersTo second.name = false ∧ second.answersTo first.name = false
  apart : parts.Pairwise Part.Apart

/-- Fields that keep their parts make a record of them. -/
theorem made_of_keeps (record : Record σ) (loose : List (Part σ))
    (hnamed : record.fields.Pairwise fun first second =>
      first.answersTo second.name = false ∧ second.answersTo first.name = false)
    (hapart : parts.Pairwise Part.Apart)
    (hkeeps : List.Forall₂ (Field.Keeps record.blank loose) record.fields parts) :
    record.Made parts ∧ ∀ part ∈ parts, part ∈ loose ∨ part.codec.Stable part.settle := by
  refine ⟨⟨hkeeps.imp fun _ _ h => h.toHandles, hnamed, hapart⟩, fun part hpart => ?_⟩
  obtain ⟨pairs, -, rfl, hpairs⟩ := exists_pairs hkeeps
  obtain ⟨pair, hpair, rfl⟩ := List.mem_map.1 hpart
  exact (hpairs pair hpair).steady

namespace Made

variable (h : record.Made parts)

include h

/-- A field is found by its name. -/
theorem find?_name {field : Field σ} (hfield : field ∈ record.fields) :
    record.fields.find? (·.answersTo field.name) = some field := by
  obtain ⟨before, after, hfields⟩ := List.append_of_mem hfield
  have hnamed := h.named
  rw [hfields, List.pairwise_append] at hnamed
  refine List.find?_eq_some_iff_append.2 ⟨by simp [Field.answersTo], before, after, hfields, ?_⟩
  intro earlier hearlier
  simp [(hnamed.2.2 earlier hearlier field List.mem_cons_self).1]

/-- The names of the fields differ. -/
theorem nodup_names : (record.fields.map (·.name)).Nodup := by
  refine List.pairwise_map.2 (h.named.imp fun {first second} hnamed hsame => ?_)
  have hanswers := hnamed.1
  rw [← hsame] at hanswers
  simp [Field.answersTo] at hanswers

/-- Different parts are apart. -/
theorem eq_or_apart {first second : Part σ} (hfirst : first ∈ parts) (hsecond : second ∈ parts) :
    first = second ∨ first.Apart second :=
  Classical.or_iff_not_imp_left.2 (h.apart.forall hfirst hsecond)

/-! ## What is read -/

omit h in
/-- All parts with stable codecs are restored. -/
def Kept (parts : List (Part σ)) (content : σ) : Prop :=
  ∀ part ∈ parts, part.codec.Stable part.settle → ∀ again, part.Restored again content

theorem kept_blank : Kept parts record.blank := by
  obtain ⟨pairs, -, rfl, hhandles⟩ := exists_pairs h.handles
  intro part hpart _
  obtain ⟨pair, hpair, rfl⟩ := List.mem_map.1 hpart
  exact (hhandles pair hpair).blank

/-- One more field keeps what is restored. -/
theorem kept_load {field : Field σ} (hfield : field ∈ record.fields) (hproper : value.isProper = true)
    {change : σ → σ} (hload : field.load origin value = .ok change) (hkept : Kept parts content) :
    Kept parts (change content) := by
  obtain ⟨pairs, hfields, hparts, hpairs⟩ := exists_pairs h.handles
  rw [← hfields] at hfield
  obtain ⟨⟨field, changed⟩, hpair, rfl⟩ := List.mem_map.1 hfield
  have hchanged : changed ∈ parts := hparts ▸ List.mem_map_of_mem hpair
  have hhandles := hpairs _ hpair
  obtain ⟨new, hnew, rfl⟩ := hhandles.eq_set hload
  intro part hpart hstable again
  unfold Part.Restored
  rcases h.eq_or_apart hpart hchanged with rfl | hapart
  · rw [hhandles.get_set]
    exact hstable hproper hnew again
  · rw [hapart.left]
    exact hkept part hpart hstable again

theorem kept_foldlM {members : List (String × Value)} {filled final : Filled σ}
    (hproper : ∀ member ∈ members, member.2.isProper = true) (hkept : Kept parts filled.1)
    (hread : members.foldlM (record.takeMember origin) filled = .ok final) :
    Kept parts final.1 := by
  induction members generalizing filled with
  | nil =>
      cases hread
      exact hkept
  | cons member members ih =>
      obtain ⟨hmember, hmembers⟩ := List.forall_mem_cons.1 hproper
      rw [List.foldlM_cons] at hread
      obtain ⟨next, htake, hrest⟩ := bind_eq_ok_iff.1 hread
      refine ih hmembers ?_ hrest
      unfold takeMember at htake
      split at htake
      · cases htake
        exact hkept
      · next field hfield =>
        split at htake
        · cases htake
        · obtain ⟨change, hchange, heq⟩ := bind_eq_ok_iff.1 htake
          cases heq
          exact h.kept_load (List.mem_of_find?_eq_some hfield) hmember hchange hkept

theorem kept_readRow {fields : List (Field σ)} (hfields : ∀ field ∈ fields, field ∈ record.fields)
    {items rest : List Value} (hproper : ∀ item ∈ items, item.isProper = true) {index : Nat}
    {start final : σ} (hkept : Kept parts start)
    (hread : record.readRow origin index fields items start = .ok (final, rest)) :
    Kept parts final := by
  induction fields generalizing index items start with
  | nil =>
      cases hread
      exact hkept
  | cons field fields ih =>
      obtain ⟨hfield, hfields⟩ := List.forall_mem_cons.1 hfields
      cases items with
      | nil =>
          rw [readRow] at hread
          split at hread
          · exact ih hfields hproper hkept hread
          · cases hread
      | cons item items =>
          obtain ⟨hitem, hitems⟩ := List.forall_mem_cons.1 hproper
          obtain ⟨change, hchange, hrest⟩ := bind_eq_ok_iff.1 hread
          exact ih hfields hitems (h.kept_load hfield hitem hchange hkept) hrest

/-- What is read from a proper value is restored part by part. -/
theorem kept_of_read (hproper : value.isProper = true)
    (hread : record.codec.read origin value = .ok content) : Kept parts content := by
  cases value with
  | object members =>
      obtain ⟨filled, hfilled, hrest⟩ := bind_eq_ok_iff.1 hread
      obtain ⟨_, -, heq⟩ := bind_eq_ok_iff.1 hrest
      cases heq
      exact h.kept_foldlM (Value.isProper_object_iff.1 hproper).2 h.kept_blank hfilled
  | array items =>
      obtain ⟨⟨final, rest⟩, hrow, hrest⟩ := bind_eq_ok_iff.1 hread
      dsimp only at hrest
      split at hrest
      · cases hrest
        exact h.kept_readRow (fun _ h => h) (Value.isProper_array_iff.1 hproper) h.kept_blank hrow
      · cases hrest
  | _ => cases hread

/-! ## What is read again -/

/-- A member of a field that is not filled yet is read by the field. -/
theorem takeMember_name {field : Field σ} (hfield : field ∈ record.fields) {target : σ}
    {seen : List String} (hnew : field.name ∉ seen) (value : Value) :
    record.takeMember again (target, seen) (field.name, value) =
      (fun change => (change target, field.name :: seen)) <$> field.load again value := by
  unfold takeMember
  dsimp only
  rw [h.find?_name hfield]
  dsimp only
  rw [if_neg (by simpa using hnew)]
  cases field.load again value <;> rfl

theorem foldlM_takeMember {fields : List (Field σ)} (hfields : ∀ field ∈ fields, field ∈ record.fields)
    (hnodup : (fields.map (·.name)).Nodup) {seen : List String}
    (hnew : ∀ field ∈ fields, field.name ∉ seen) (value : Field σ → Value) (target : σ) :
    fields.foldlM (fun filled field => record.takeMember again filled (field.name, value field))
        (target, seen) =
      (fun target => (target, (fields.map (·.name)).reverse ++ seen)) <$>
        fields.foldlM (fun target field => (fun change => change target) <$>
          field.load again (value field)) target := by
  induction fields generalizing target seen with
  | nil => rfl
  | cons field fields ih =>
      obtain ⟨hfield, hfields⟩ := List.forall_mem_cons.1 hfields
      obtain ⟨hfresh, hnew⟩ := List.forall_mem_cons.1 hnew
      obtain ⟨hother, hnodup⟩ := List.nodup_cons.1 hnodup
      rw [List.foldlM_cons, List.foldlM_cons, h.takeMember_name hfield hfresh]
      cases field.load again (value field) with
      | error failure => rfl
      | ok change =>
          have hseen : ∀ later ∈ fields, later.name ∉ field.name :: seen := by
            intro later hlater hmem
            rcases List.mem_cons.1 hmem with hsame | hmem
            · exact hother (List.mem_map.2 ⟨later, hlater, hsame⟩)
            · exact hnew later hlater hmem
          have hrest := ih hfields hnodup hseen (change target)
          rw [List.map_cons, List.reverse_cons, List.append_assoc, List.singleton_append]
          exact hrest

/-- A record that was written is read field by field, in some order. No field is missing. -/
theorem read_written (content : σ) (again : Origin) :
    ∃ moved : List (Field σ), moved.Perm record.fields ∧
      record.codec.read again (record.codec.write content).sorted =
        moved.foldlM (fun target field => (fun change => change target) <$>
          field.load again (field.save content).sorted) record.blank := by
  obtain ⟨moved, hperm, hsorted⟩ :=
    Value.sorted_object_map (fun field : Field σ => field.save content) h.nodup_names
  refine ⟨moved, hperm, ?_⟩
  have hfields : ∀ field ∈ moved, field ∈ record.fields := fun _ => hperm.mem_iff.1
  have hnodup : (moved.map Field.name).Nodup := (hperm.map _).nodup_iff.2 h.nodup_names
  have hfilled : record.checkFilled ((moved.map Field.name).reverse ++ []) = .ok () := by
    unfold checkFilled
    have hnone : record.fields.find? (fun field => field.presence == .required &&
        !((moved.map Field.name).reverse ++ []).contains field.name) = none := by
      refine List.find?_eq_none.2 fun field hfield => ?_
      have hname : field.name ∈ moved.map Field.name :=
        List.mem_map_of_mem (hperm.mem_iff.2 hfield)
      simp [List.mem_map.1 hname]
    rw [hnone]
  change record.codec.read again (Value.object (record.fields.map fun field =>
    (field.name, field.save content))).sorted = _
  rw [hsorted]
  change record.readMembers again (moved.map _) = _
  rw [readMembers, List.foldlM_map,
    h.foldlM_takeMember hfields hnodup (fun _ _ => List.not_mem_nil) fun field =>
      (field.save content).sorted]
  cases moved.foldlM (fun target field => (fun change => change target) <$>
      field.load again (field.save content).sorted) record.blank with
  | error failure => rfl
  | ok target =>
      change (do
        record.checkFilled ((moved.map Field.name).reverse ++ [])
        return target) = Except.ok target
      rw [hfilled]
      rfl

/-- A record whose parts are restored is restored. -/
theorem read_restored (hrestored : ∀ part ∈ parts, part.Restored again content) :
    record.codec.read again (record.codec.write content).sorted =
      .ok (parts.foldl (fun target part => part.copy content target) record.blank) := by
  obtain ⟨moved, hperm, hread⟩ := h.read_written content again
  obtain ⟨pairs, hfields, hparts, hpairs⟩ := exists_pairs h.handles
  rw [← hfields] at hperm
  obtain ⟨order, horder, rfl⟩ := Value.exists_perm_of_perm_map hperm
  have hmem {pair : Field σ × Part σ} (hpair : pair ∈ order) : pair.2 ∈ parts :=
    hparts ▸ List.mem_map_of_mem (horder.mem_iff.1 hpair)
  have hsteps : ∀ pair ∈ order, ∀ target, (fun change : σ → σ => change target) <$>
      pair.1.load again (pair.1.save content).sorted = .ok (pair.2.copy content target) := by
    intro pair hpair target
    rw [(hpairs pair (horder.mem_iff.1 hpair)).load_save (hrestored _ (hmem hpair))]
    rfl
  have hcommute : ∀ first ∈ order, ∀ second ∈ order, ∀ target,
      second.2.copy content (first.2.copy content target) =
        first.2.copy content (second.2.copy content target) := by
    intro first hfirst second hsecond target
    rcases h.eq_or_apart (hmem hsecond) (hmem hfirst) with heq | hapart
    · rw [heq]
    · exact hapart.commute _ _ _
  rw [hread, List.foldlM_map, foldlM_eq_ok hsteps, horder.foldl_eq' hcommute, ← hparts,
    List.foldl_map]

/-- A record is refused if one of its parts is, and if the others are restored. -/
theorem refuses (hparts : ∀ part ∈ parts,
      part.Restored again content ∨ part.codec.Refuses again (part.get content))
    (hrefused : ∃ part ∈ parts, part.codec.Refuses again (part.get content)) :
    record.codec.Refuses again content := by
  obtain ⟨moved, hperm, hread⟩ := h.read_written content again
  obtain ⟨pairs, hfields, rfl, hpairs⟩ := exists_pairs h.handles
  have hload {pair : Field σ × Part σ} (hpair : pair ∈ pairs) :
      pair.1.load again (pair.1.save content).sorted =
        (fun content record => pair.2.set record content) <$>
          pair.2.codec.read again (pair.2.codec.write (pair.2.get content)).sorted := by
    rw [(hpairs pair hpair).load, (hpairs pair hpair).save]
  unfold Codec.Refuses
  rw [hread]
  refine foldlM_eq_error (fun field hfield => ?_) ?_ _
  · rw [hperm.mem_iff, ← hfields] at hfield
    obtain ⟨pair, hpair, rfl⟩ := List.mem_map.1 hfield
    rw [hload hpair]
    rcases hparts pair.2 (List.mem_map_of_mem hpair) with hrestored | ⟨failure, hkey, hfails⟩
    · exact .inl fun target => ⟨_, by rw [hrestored]; rfl⟩
    · exact .inr ⟨failure, hkey, fun target => by rw [hfails]; rfl⟩
  · obtain ⟨part, hpart, failure, -, hfails⟩ := hrefused
    obtain ⟨pair, hpair, rfl⟩ := List.mem_map.1 hpart
    refine ⟨pair.1, hperm.mem_iff.2 (hfields ▸ List.mem_map_of_mem hpair), failure, fun target => ?_⟩
    rw [hload hpair, hfails]
    rfl

end Made

/-- A record whose fields keep all their parts is stable. -/
theorem stable {settle : σ → σ}
    (hnamed : record.fields.Pairwise fun first second =>
      first.answersTo second.name = false ∧ second.answersTo first.name = false)
    (hapart : parts.Pairwise Part.Apart)
    (hsettle : ∀ content, parts.foldl (fun target part => part.copy content target) record.blank =
      settle content)
    (hkeeps : List.Forall₂ (Field.Keeps record.blank []) record.fields parts) :
    record.codec.Stable settle := by
  intro origin value content hproper hread again
  obtain ⟨hmade, hsteady⟩ := made_of_keeps record [] hnamed hapart hkeeps
  unfold Codec.Restores
  rw [hmade.read_restored fun part hpart => ?_, hsettle]
  rcases hsteady part hpart with hloose | hstable
  · cases hloose
  · exact hmade.kept_of_read hproper hread part hpart hstable again

end Record

end TickScript.Settings
