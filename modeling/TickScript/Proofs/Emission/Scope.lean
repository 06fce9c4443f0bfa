import TickScript.Emission.Context

/-!
# Names in scope

Blocks are written with their lines indented, so a block is left at the first line that stands
further out. `Line.Declares` reads off a line which name it makes known and from which depth on, and
`InScope` says that at some point of a function the block of such a line is still open.
-/

namespace TickScript.Emission

/-- A line makes a name known from a depth on. A constant or variable belongs to the block of its
line; the counter of a loop and a caught error belong to the block that the line opens. -/
def Line.Declares (line : Line) (name : String) (depth : Nat) : Prop :=
  (∃ word ∈ ["const ", "let "], (word ++ name ++ " = ").toList <+: line.text.toList) ∧
      depth = line.indent ∨
    (∃ header ∈ ["for (let " ++ name ++ " = ", "\x7d catch (" ++ name ++ ") \x7b"],
        header.toList <+: line.text.toList) ∧
      depth = line.indent + indentStep

instance (line : Line) (name : String) (depth : Nat) : Decidable (line.Declares name depth) :=
  inferInstanceAs (Decidable (_ ∨ _))

/-- A name is in scope at a point: a line before it makes the name known, and neither the lines since
then nor the point itself are outside of its block. -/
def InScope (lines : List Line) (site : Site) (name : String) : Prop :=
  ∃ before line between depth, lines.take site.line = before ++ line :: between ∧
    line.Declares name depth ∧ depth ≤ site.indent ∧ ∀ later ∈ between, depth ≤ later.indent

/-- The block of one point is still open at a later one. -/
def StaysOpen (lines : List Line) (site later : Site) : Prop :=
  site.indent ≤ later.indent ∧
    ∀ line ∈ (lines.take later.line).drop site.line, site.indent ≤ line.indent

variable {lines : List Line} {site : Site} {name : String}

/-- Lines that are written later do not matter. -/
theorem InScope.append (h : InScope lines site name) (hsite : site.line ≤ lines.length)
    (written : List Line) : InScope (lines ++ written) site name := by
  unfold InScope
  rw [List.take_append_of_le_length hsite]
  exact h

/-- A name stays in scope while the block of the point is open. -/
theorem InScope.later {later : Site} (h : InScope lines site name)
    (hopen : StaysOpen lines site later) (hline : site.line ≤ later.line) :
    InScope lines later name := by
  obtain ⟨before, line, between, depth, hlines, hdeclares, hdepth, hbetween⟩ := h
  have hsplit : lines.take later.line =
      before ++ line :: (between ++ (lines.take later.line).drop site.line) := by
    calc
      lines.take later.line =
          (lines.take later.line).take site.line ++ (lines.take later.line).drop site.line :=
        (List.take_append_drop _ _).symm
      _ = lines.take site.line ++ (lines.take later.line).drop site.line := by
        rw [List.take_take, Nat.min_eq_left hline]
      _ = before ++ line :: (between ++ (lines.take later.line).drop site.line) := by
        rw [hlines, List.append_assoc, List.cons_append]
  refine ⟨before, line, _, depth, hsplit, hdeclares, Nat.le_trans hdepth hopen.1, fun other hother => ?_⟩
  rcases List.mem_append.1 hother with hother | hother
  · exact hbetween other hother
  · exact Nat.le_trans hdepth (hopen.2 other hother)

namespace Context

/-- A name is in scope where a context has got to. -/
def Holds (context : Context) (name : String) : Prop := InScope context.lines context.site name

/-- What is written leaves the indentation as it is and stands at least as deep. -/
structure Grows (context final : Context) : Prop where
  indent : final.indent = context.indent
  lines : ∃ written, final.lines = context.lines ++ written ∧
    ∀ line ∈ written, context.indent ≤ line.indent

variable {context middle final : Context}

theorem Grows.refl (context : Context) : Grows context context := ⟨rfl, [], by simp⟩

/-- Changes that are not to lines or the indentation do not matter. -/
theorem Grows.congr (h : Grows middle final) (hindent : middle.indent = context.indent)
    (hlines : middle.lines = context.lines) : Grows context final :=
  ⟨h.indent.trans hindent, hindent ▸ hlines ▸ h.lines⟩

theorem Grows.push (context : Context) (text : String) : Grows context (context.push text) :=
  ⟨rfl, [⟨context.indent, text⟩], rfl, by simp⟩

theorem Grows.trans (h : Grows context middle) (hlater : Grows middle final) :
    Grows context final := by
  obtain ⟨written, hlines, hdeep⟩ := h.lines
  obtain ⟨more, hmore, hdeeper⟩ := hlater.lines
  refine ⟨hlater.indent.trans h.indent, written ++ more, ?_, fun line hline => ?_⟩
  · rw [hmore, hlines, List.append_assoc]
  · rcases List.mem_append.1 hline with hline | hline
    · exact hdeep line hline
    · exact h.indent ▸ hdeeper line hline

/-- A part that stands one level deeper leaves the indentation as it was. -/
theorem Grows.deeper (h : Grows context.enter middle) : Grows context middle.exit := by
  obtain ⟨written, hlines, hdeep⟩ := h.lines
  refine ⟨?_, written, hlines, fun line hline => ?_⟩
  · have hindent : middle.indent = context.indent + indentStep := h.indent
    simp [exit, hindent]
  · have hline : context.indent + indentStep ≤ line.indent := hdeep line hline
    omega

/-- The lines only become more. -/
theorem Grows.length_le (h : Grows context final) : context.lines.length ≤ final.lines.length := by
  obtain ⟨written, hlines, -⟩ := h.lines
  rw [hlines, List.length_append]
  omega

/-- What is written at a deeper level leaves the block open. -/
theorem Grows.staysOpen (h : Grows context final) :
    StaysOpen final.lines context.site final.site := by
  obtain ⟨written, hlines, hdeep⟩ := h.lines
  refine ⟨Nat.le_of_eq h.indent.symm, fun line hline => hdeep line ?_⟩
  have hdrop : (final.lines.take final.site.line).drop context.site.line = written := by
    rw [show final.site.line = final.lines.length from rfl, List.take_length, hlines]
    exact List.drop_left
  exact hdrop ▸ hline

/-- A name stays in scope. -/
theorem Grows.holds (h : Grows context final) {name : String} (hname : context.Holds name) :
    final.Holds name := by
  obtain ⟨written, hlines, -⟩ := h.lines
  have hscope : InScope final.lines context.site name := by
    rw [hlines]
    exact hname.append (Nat.le_refl _) written
  exact hscope.later h.staysOpen h.length_le

/-- A name stays in scope inside of a block. -/
theorem Holds.enter {name : String} (h : context.Holds name) : context.enter.Holds name := by
  refine InScope.later h ⟨Nat.le_add_right _ _, ?_⟩ (Nat.le_refl _)
  simp [Context.enter, Context.site]

/-- A line that begins with a declaration puts its name in scope. -/
theorem holds_push {word name text : String} (hword : word ∈ ["const ", "let "])
    (htext : (word ++ name ++ " = ").toList <+: text.toList) : (context.push text).Holds name :=
  ⟨context.lines, ⟨context.indent, text⟩, [], context.indent,
    List.take_of_length_le (Nat.le_refl _), .inl ⟨⟨word, hword, htext⟩, rfl⟩, Nat.le_refl _, by simp⟩

/-- The header of a block puts its name in scope inside of the block. -/
theorem holds_enter {header name text : String}
    (hheader : header ∈ ["for (let " ++ name ++ " = ", "\x7d catch (" ++ name ++ ") \x7b"])
    (htext : header.toList <+: text.toList) : (context.push text).enter.Holds name :=
  ⟨context.lines, ⟨context.indent, text⟩, [], context.indent + indentStep,
    List.take_of_length_le (Nat.le_refl _), .inr ⟨⟨header, hheader, htext⟩, rfl⟩, Nat.le_refl _,
    by simp⟩

end Context

end TickScript.Emission
