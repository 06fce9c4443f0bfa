import TickScript.Emission.File
import TickScript.Proofs.Emission.Composition
import TickScript.Proofs.Keyed
import TickScript.Proofs.Walk.Course

/-!
# Inputs that statements leave out

The statements of a node may hold the text that is given for an input, and `undefined` in its place
if nothing is given. `WritesUndefined` says so: a name that is given for the input takes the place of
`undefined`. Other statements are made without the input. A memory read has no default then, and an
order has no price or no amount. Any name for the input would make them longer, also one that is as
long as `undefined`, so there is no `undefined` in them that stands for it.
-/

namespace TickScript

/-- The kinds that accept an order of someone else. -/
def Kind.isDeal : Kind → Bool
  | .market settings => settings.mode = .deal
  | _ => false

/-! ## Lengths of texts -/

namespace Text

/-- Separators of one length give texts of one length. -/
theorem length_intercalate_eq {separator separator' : String}
    (h : separator.length = separator'.length) (pieces : List String) :
    (separator.intercalate pieces).length = (separator'.intercalate pieces).length := by
  match pieces with
  | [] => simp only [String.intercalate_nil]
  | [piece] => simp only [String.intercalate_singleton]
  | piece :: next :: pieces =>
      rw [String.intercalate_cons_cons, String.intercalate_cons_cons]
      simp only [String.length_append, h, length_intercalate_eq h (next :: pieces)]

/-- A further piece makes a text longer. -/
theorem length_intercalate_lt {separator : String} (h : 0 < separator.length)
    (first piece : String) (front back : List String) :
    (separator.intercalate (first :: (front ++ back))).length <
      (separator.intercalate (first :: (front ++ piece :: back))).length := by
  induction front generalizing first with
  | nil =>
      cases back with
      | nil =>
          simp only [List.nil_append, String.intercalate_singleton, String.intercalate_cons_cons,
            String.length_append]
          omega
      | cons next back =>
          simp only [List.nil_append, String.intercalate_cons_cons, String.length_append]
          omega
  | cons next front ih =>
      simp only [List.cons_append, String.intercalate_cons_cons, String.length_append]
      exact Nat.add_lt_add_left (ih next) _

end Text

namespace Literal

theorem renderEntries_append (entries later : List (String × Literal)) :
    renderEntries (entries ++ later) = renderEntries entries ++ renderEntries later := by
  induction entries with
  | nil => rfl
  | cons entry entries ih => simp [renderEntries, ih]

theorem length_renderBraces_cons (entry : String) (entries : List String) :
    (renderBraces (entry :: entries)).length = (", ".intercalate (entry :: entries)).length + 4 := by
  have hopen : "\x7b ".length = 2 := by decide
  have hclose : " \x7d".length = 2 := by decide
  simp only [renderBraces, List.isEmpty_cons, Bool.false_eq_true, if_false, String.length_append]
  omega

/-- An entry that is given makes an object longer. -/
theorem length_settingsObject_lt (first : String) (front back : List (String × Literal))
    (label key text : String) :
    (settingsObject ((label, .text first) :: (front ++ (key, .undefined) :: back))).length <
      (settingsObject ((label, .text first) :: (front ++ (key, .text text) :: back))).length := by
  have hdropped : isUndefined .undefined = true := rfl
  have hkept (text : String) : isUndefined (.text text) = false := rfl
  simp only [settingsObject, List.filter_cons, List.filter_append, hdropped, hkept, Bool.not_false,
    Bool.not_true, if_true, Bool.false_eq_true, if_false, renderEntries, renderEntries_append,
    length_renderBraces_cons]
  exact Nat.add_lt_add_right (Text.length_intercalate_lt (by decide) _ _ _ _) 4

end Literal

namespace Emission

/-- A line stands between the lines before and after it. -/
theorem joinLines_append_cons (before after : List Line) (indent : Nat) (text : String) :
    joinLines (before ++ ⟨indent, text⟩ :: after) =
      (joinLines before ++ String.ofList (List.replicate indent ' ')) ++ text ++
        ("\n" ++ joinLines after) := by
  simp [joinLines, String.join_append, Line.render, String.append_assoc]

end Emission

/-! ## Nodes with one more input -/

namespace Node

variable (node : Node)

/-- A node that is given a text for an input. -/
def withText (name text : String) : Node := node.withInput name (.literal (.text text))

theorem input?_withText_self (name text : String) :
    (node.withText name text).input? name = some (.literal (.text text)) :=
  Keyed.get?_insert_self

theorem input?_withText_of_ne {name other : String} (hne : other ≠ name) (text : String) :
    (node.withText name text).input? other = node.input? other :=
  Keyed.get?_insert_of_ne hne

end Node

namespace Emission

namespace Emit

variable (node : Node)

/-- A text that is given for an input is written as it stands. -/
theorem input_withText_self (name text : String) (fallback : Literal) :
    input (node.withText name text) name fallback = pure text :=
  input_of_some (node.input?_withText_self name text) fallback

/-- The other inputs are what they were. -/
theorem input_withText_of_ne {name other : String} (hne : other ≠ name) (text : String) :
    input (node.withText name text) other = input node other := by
  funext fallback
  unfold input
  rw [node.input?_withText_of_ne hne]
  rfl

theorem optionalInput_of_none {name : String} (h : node.input? name = none) (context : Context) :
    (optionalInput node name .undefined).run context =
      (.undefined, context.standIn node.id name .undefined) := by
  unfold optionalInput
  simp only [StateT.run_bind, input_of_none h]
  rfl

theorem optionalInput_withText_self (name : String) {text : String} (h : text ≠ unresolved)
    (fallback : Literal) :
    optionalInput (node.withText name text) name fallback = pure (.text text) := by
  unfold optionalInput
  rw [input_withText_self, pure_bind, if_neg h]

/-- A text that is given for an input is written as it stands, also if it is `undefined`. -/
theorem optionalInput_withText_render (name text : String) (fallback : Literal) :
    ∃ literal : Literal, literal.render = text ∧
      optionalInput (node.withText name text) name fallback = pure literal := by
  by_cases htext : text = unresolved
  · refine ⟨.undefined, ?_, ?_⟩
    · rw [htext, Literal.render, unresolved]
    · unfold optionalInput
      rw [input_withText_self, pure_bind, if_pos htext]
  · refine ⟨.text text, ?_, optionalInput_withText_self node name htext fallback⟩
    rw [Literal.render]

theorem optionalInput_withText_of_ne {name other : String} (hne : other ≠ name) (text : String) :
    optionalInput (node.withText name text) other = optionalInput node other := by
  funext fallback
  unfold optionalInput
  rw [input_withText_of_ne node hne]

/-- It makes no difference to an input what stood in for others. -/
theorem input_standIn (name : String) (fallback : Literal) (context : Context)
    (nodeId other : String) (literal : Literal) :
    ((input node name fallback).run (context.standIn nodeId other literal)).1 =
      ((input node name fallback).run context).1 := by
  have hvalues : (context.standIn nodeId other literal).values = context.values := rfl
  exact input_congr hvalues node name fallback

theorem optionalInput_page (name : String) (fallback : Literal) (context : Context) :
    ((optionalInput node name fallback).run context).2.page = context.page :=
  input_page node name fallback context

theorem optionalInput_standIn (name : String) (fallback : Literal) (context : Context)
    (nodeId other : String) (literal : Literal) :
    ((optionalInput node name fallback).run (context.standIn nodeId other literal)).1 =
      ((optionalInput node name fallback).run context).1 :=
  congrArg (fun expr => if expr = unresolved then Literal.undefined else .text expr)
    (input_standIn node name fallback context nodeId other literal)

end Emit

end Emission

namespace Kind

open Emission

variable {node : Node}

/-! ## Memory reads -/

namespace Memory

theorem locate_withText (settings : Memory) (text : String) :
    settings.locate (node.withText "default" text) = settings.locate node := by
  have hroom : Emit.input (node.withText "default" text) "room" = Emit.input node "room" :=
    Emit.input_withText_of_ne node (by decide) text
  have hactor : Emit.actorInput (node.withText "default" text) = Emit.actorInput node := by
    unfold Emit.actorInput
    rw [Emit.input_withText_of_ne node (by decide) text]
  unfold Memory.locate
  rw [hroom, hactor]

/-- The line of a memory read in a context. -/
def readLine (context : Context) (read : String) : Line :=
  let name := context.nextName "mem"
  ⟨context.indent, s!"const {name} = {read};"⟩

/-- Without a default the location is read as it is. -/
theorem emitRead_of_none (settings : Memory) (hnone : node.input? "default" = none)
    (hdefault : settings.default.isUndefined = true) (context : Context) :
    let located := (settings.locate node).run context
    ((settings.emitRead node).run context).2.lines =
      located.2.lines ++ [readLine located.2 located.1.optional] := by
  unfold emitRead
  simp only [StateT.run_bind, hnone, hdefault, Emit.input_of_none hnone settings.default]
  rfl

theorem emitRead_withText (settings : Memory) (text : String) (context : Context) :
    let located := (settings.locate node).run context
    ((settings.emitRead (node.withText "default" text)).run context).2.lines =
      located.2.lines ++ [readLine located.2 s!"{located.1.optional} ?? {text}"] := by
  unfold emitRead
  rw [locate_withText, Emit.input_withText_self, Node.input?_withText_self]
  rfl

/-- A default makes a memory read longer. -/
theorem length_emitRead_lt (settings : Memory) (hnone : node.input? "default" = none)
    (hdefault : settings.default.isUndefined = true) (text : String) (context : Context) :
    (joinLines ((settings.emitRead node).run context).2.lines).length <
      (joinLines ((settings.emitRead (node.withText "default" text)).run context).2.lines).length := by
  rw [settings.emitRead_of_none hnone hdefault, settings.emitRead_withText]
  have hmark : 0 < " ?? ".length := by decide
  simp only [readLine, joinLines_append_cons, toString, String.length_append]
  omega

end Memory

/-! ## Orders -/

namespace Market

variable (settings : Market)

/-- The terminal of a market node. -/
def terminal (node : Node) : Emit String := do
  let terminal ← Emit.input node "terminal" (← Emit.actorMember "room.terminal")
  Emit.bind "terminal" terminal

/-- What is taken for an amount that nothing is given for. -/
def amountFallback : Literal :=
  match settings.amount with
  | some amount => .number (.ofInt amount)
  | none => .undefined

/-- What is taken for a price that nothing is given for. -/
def priceFallback : Literal :=
  match settings.price with
  | some price => .number price
  | none => .undefined

/-- The call that places an order with a price and an amount. -/
def orderText (terminal : String) (price amount : Literal) : String :=
  let order := if settings.mode = .buy then "ORDER_BUY" else "ORDER_SELL"
  let fields := Literal.settingsObject [
    ("type", .text order),
    ("resourceType", .text settings.resource),
    ("price", price),
    ("totalAmount", amount),
    ("roomName", .text s!"{terminal}.room.name")]
  s!"Game.market.createOrder({fields})"

/-- Hold the result of a call that is made if there is a terminal. -/
def trade (node : Node) (terminal call : String) : Emit Unit := do
  let result ← Emit.fresh "market"
  Emit.say s!"let {result} = ERR_NOT_FOUND;"
  Emit.block s!"if ({terminal})" do
    Emit.say s!"{result} = {call};"
  Emit.produce node.id result

/-- An order asks for the terminal, the amount and the price, and is then placed. -/
theorem emit_of_order (h : settings.mode ≠ .deal) (context : Context) :
    let located := (terminal node).run context
    let amount := (Emit.optionalInput node "amount" settings.amountFallback).run located.2
    let price := (Emit.optionalInput node "price" settings.priceFallback).run amount.2
    (settings.emit node).run context =
      (trade node located.1 (settings.orderText located.1 price.1 amount.1)).run price.2 := by
  have horder (terminal : String) (amount : Literal) : settings.orderCall node terminal amount =
      (do
        let price ← Emit.optionalInput node "price" settings.priceFallback
        return settings.orderText terminal price amount) := by
    unfold orderCall priceFallback orderText
    rfl
  unfold emit
  simp only [horder]
  cases hmode : settings.mode with
  | buy | sell => rfl
  | deal => exact absurd hmode h

/-- A price makes an order longer. -/
theorem length_orderText_lt_of_price (terminal text : String) (amount : Literal) :
    (settings.orderText terminal .undefined amount).length <
      (settings.orderText terminal (.text text) amount).length := by
  have hfields := Literal.length_settingsObject_lt
    (if settings.mode = .buy then "ORDER_BUY" else "ORDER_SELL")
    [("resourceType", .text settings.resource)]
    [("totalAmount", amount), ("roomName", .text (terminal ++ ".room.name"))] "type" "price" text
  unfold orderText
  simp only [toString, String.length_append, List.cons_append, List.nil_append] at hfields ⊢
  omega

/-- An amount makes an order longer. -/
theorem length_orderText_lt_of_amount (terminal text : String) (price : Literal) :
    (settings.orderText terminal price .undefined).length <
      (settings.orderText terminal price (.text text)).length := by
  have hfields := Literal.length_settingsObject_lt
    (if settings.mode = .buy then "ORDER_BUY" else "ORDER_SELL")
    [("resourceType", .text settings.resource), ("price", price)]
    [("roomName", .text (terminal ++ ".room.name"))] "type" "totalAmount" text
  unfold orderText
  simp only [toString, String.length_append, List.cons_append, List.nil_append] at hfields ⊢
  omega

/-- A trade holds its call once, between texts that depend on the page. -/
theorem trade_text (terminal : String) (page : List Line × Nat × Nat) :
    ∃ front back, ∀ (node : Node) (call : String) (context : Context), context.page = page →
      joinLines ((trade node terminal call).run context).2.lines = front ++ call ++ back := by
  obtain ⟨lines, indent, temps⟩ := page
  let result := "market" ++ "_" ++ Nat.repr (temps + 1)
  let before := lines ++ [⟨indent, s!"let {result} = ERR_NOT_FOUND;"⟩,
    ⟨indent, s!"if ({terminal})" ++ " \x7b"⟩]
  refine ⟨joinLines before ++ String.ofList (List.replicate (indent + indentStep) ' ') ++
    (result ++ " = "), ";" ++ ("\n" ++ joinLines [⟨indent, "\x7d"⟩]), ?_⟩
  intro node call context hpage
  simp only [Context.page, Prod.mk.injEq] at hpage
  obtain ⟨rfl, rfl, rfl⟩ := hpage
  -- Only the third of the four lines has the call in it.
  have hlines : ((trade node terminal call).run context).2.lines =
      before ++ ⟨context.indent + indentStep, s!"{result} = {call};"⟩ :: [⟨context.indent, "\x7d"⟩] := by
    show (((((context.issue "market").push _).push _).enter.push _).exit.push _).lines = _
    simp [before, result, Context.push, Context.enter, Context.exit, Context.issue, Context.nextName]
  rw [hlines, joinLines_append_cons]
  simp only [toString, String.append_assoc]

/-- A longer call makes a trade longer. -/
theorem length_trade_lt {node' : Node} (terminal : String) {call call' : String}
    (h : call.length < call'.length) {context context' : Context}
    (hpage : context.page = context'.page) :
    (joinLines ((trade node terminal call).run context).2.lines).length <
      (joinLines ((trade node' terminal call').run context').2.lines).length := by
  obtain ⟨front, back, htext⟩ := trade_text terminal context'.page
  rw [htext node call context hpage, htext node' call' context' rfl]
  simp only [String.length_append]
  omega

theorem terminal_withText {name : String} (hne : "terminal" ≠ name) (text : String) :
    terminal (node.withText name text) = terminal node := by
  unfold terminal
  rw [Emit.input_withText_of_ne node hne]

/-- A price makes the statements of an order longer. -/
theorem length_emit_lt_of_price (hmode : settings.mode ≠ .deal) (hprice : settings.price = none)
    (hnone : node.input? "price" = none) {text : String} (htext : text ≠ unresolved)
    (context : Context) :
    (joinLines ((settings.emit node).run context).2.lines).length <
      (joinLines ((settings.emit (node.withText "price" text)).run context).2.lines).length := by
  have hfallback : settings.priceFallback = .undefined := by
    unfold priceFallback
    rw [hprice]
  rw [settings.emit_of_order hmode, settings.emit_of_order hmode, terminal_withText (by decide),
    Emit.optionalInput_withText_of_ne node (by decide : "amount" ≠ "price"),
    Emit.optionalInput_withText_self node "price" htext, hfallback,
    Emit.optionalInput_of_none node hnone]
  exact length_trade_lt _ (settings.length_orderText_lt_of_price _ text _) rfl

/-- An amount makes the statements of an order longer. -/
theorem length_emit_lt_of_amount (hmode : settings.mode ≠ .deal) (hamount : settings.amount = none)
    (hnone : node.input? "amount" = none) {text : String} (htext : text ≠ unresolved)
    (context : Context) :
    (joinLines ((settings.emit node).run context).2.lines).length <
      (joinLines ((settings.emit (node.withText "amount" text)).run context).2.lines).length := by
  have hfallback : settings.amountFallback = .undefined := by
    unfold amountFallback
    rw [hamount]
  rw [settings.emit_of_order hmode, settings.emit_of_order hmode, terminal_withText (by decide),
    Emit.optionalInput_withText_of_ne node (by decide : "price" ≠ "amount"),
    Emit.optionalInput_withText_self node "amount" htext, hfallback,
    Emit.optionalInput_of_none node hnone]
  -- The price is asked for in contexts that differ in what stood in for the amount, and only in this.
  refine length_trade_lt _ ?_ ?_
  · rw [Emit.optionalInput_standIn]
    exact settings.length_orderText_lt_of_amount _ text _
  · have hpage := Emit.optionalInput_page node "price" settings.priceFallback
    exact (hpage _).trans (hpage ((terminal node).run context).2).symm

/-! ## Deals -/

/-- What is taken for an order that nothing is given for. -/
def orderFallback : Literal :=
  match settings.orderId with
  | some id => .text (Text.quote id)
  | none => .undefined

/-- The call that accepts an amount of an order. -/
def dealText (terminal : String) (order amount : Literal) : String :=
  s!"Game.market.deal({order.render}, {amount.render}, {terminal}.room.name)"

/-- A deal holds its amount once. -/
theorem dealText_split (front back terminal : String) (order : Literal) :
    ∃ before after, ∀ amount : Literal,
      front ++ dealText terminal order amount ++ back = before ++ amount.render ++ after := by
  refine ⟨front ++ ("Game.market.deal(" ++ order.render ++ ", "),
    ", " ++ terminal ++ ".room.name)" ++ back, fun amount => ?_⟩
  unfold dealText
  generalize order.render = orderText
  generalize amount.render = amountText
  simp only [toString, String.append_assoc]

/-- The context after a warning about an order that is missing. -/
def warnOfOrder (node : Node) (order : Literal) (context : Context) : Context :=
  if order.isUndefined then context.warn node.id "market deal has no order id" else context

theorem warnOfOrder_page (order : Literal) (context : Context) :
    (warnOfOrder node order context).page = context.page := by
  unfold warnOfOrder
  split <;> rfl

/-- A deal asks for the terminal, the amount and the order, and is then made. -/
theorem emit_of_deal (h : settings.mode = .deal) (context : Context) :
    let located := (terminal node).run context
    let amount := (Emit.optionalInput node "amount" settings.amountFallback).run located.2
    let order := (Emit.optionalInput node "orderId" settings.orderFallback).run amount.2
    (settings.emit node).run context =
      (trade node located.1 (dealText located.1 order.1 amount.1)).run
        (warnOfOrder node order.1 order.2) := by
  intro located amount order
  have hwarn (context : Context) : StateT.run (do
      if order.1.isUndefined then Emit.warn node.id "market deal has no order id"
      return dealText located.1 order.1 amount.1 : Emit String) context =
        (dealText located.1 order.1 amount.1, warnOfOrder node order.1 context) := by
    unfold warnOfOrder
    cases order.1.isUndefined <;> rfl
  have hdeal : (settings.dealCall node located.1 amount.1).run amount.2 =
      (dealText located.1 order.1 amount.1, warnOfOrder node order.1 order.2) := by
    unfold dealCall
    exact hwarn order.2
  unfold emit
  rw [h]
  show (trade node located.1 ((settings.dealCall node located.1 amount.1).run amount.2).1).run
    ((settings.dealCall node located.1 amount.1).run amount.2).2 = _
  rw [hdeal]

/-- The statements of a deal hold its amount once, `undefined` if nothing is given for it. -/
theorem emit_deal_text (hmode : settings.mode = .deal) (hamount : settings.amount = none)
    (hnone : node.input? "amount" = none) (context : Context) :
    ∃ front back, joinLines ((settings.emit node).run context).2.lines =
        front ++ unresolved ++ back ∧
      ∀ text, joinLines ((settings.emit (node.withText "amount" text)).run context).2.lines =
        front ++ text ++ back := by
  let located := (terminal node).run context
  let order := (Emit.optionalInput node "orderId" settings.orderFallback).run located.2
  obtain ⟨front, back, htrade⟩ := trade_text located.1 located.2.page
  have hfallback : settings.amountFallback = .undefined := by
    unfold amountFallback
    rw [hamount]
  have hpage (context : Context) (h : context.page = located.2.page) :
      (warnOfOrder node order.1 ((Emit.optionalInput node "orderId" settings.orderFallback).run
        context).2).page = located.2.page :=
    ((warnOfOrder_page _ _).trans (Emit.optionalInput_page node "orderId" _ context)).trans h
  obtain ⟨before, after, hcall⟩ := dealText_split front back located.1 order.1
  have hundefined : unresolved = Literal.undefined.render := by rw [Literal.render, unresolved]
  refine ⟨before, after, ?_, fun text => ?_⟩
  · rw [hundefined, ← hcall, settings.emit_of_deal hmode, hfallback,
      Emit.optionalInput_of_none node hnone, Emit.optionalInput_standIn]
    exact htrade _ _ _ (hpage _ rfl)
  · obtain ⟨amount, rfl, hgiven⟩ :=
      Emit.optionalInput_withText_render node "amount" text settings.amountFallback
    rw [← hcall, settings.emit_of_deal hmode, terminal_withText (by decide), hgiven,
      Emit.optionalInput_withText_of_ne node (by decide : "orderId" ≠ "amount")]
    exact htrade _ _ _ (hpage _ rfl)

end Market

end Kind

/-! ## Statements with and without an input -/

namespace Emission

/-- The lines after the statements of a node, as a text. -/
def textAfter (setting : Setting) (branch : List String → Walk Unit) (state : Walk.State)
    (node : Node) : String :=
  joinLines (Walk.after (dispatch setting branch node) state).context.lines

/-- The statements of a node hold `undefined` for an input: a name that is given for the input takes
its place, in at least one place and in the same places for all names. -/
def WritesUndefined (setting : Setting) (node : Node) (input : String) : Prop :=
  ∃ branch state pieces, 2 ≤ pieces.length ∧
    textAfter setting branch state node = unresolved.intercalate pieces ∧
    ∀ name, Text.isIdentifier name = true →
      textAfter setting branch state (node.withText input name) = name.intercalate pieces

variable {setting : Setting} {node : Node}

/-- Statements that hold what is given for an input once, and `undefined` if nothing is. -/
theorem writesUndefined_of_split {input : String} (branch : List String → Walk Unit)
    (state : Walk.State) (front back : String)
    (hopen : textAfter setting branch state node = front ++ unresolved ++ back)
    (hgiven : ∀ name, textAfter setting branch state (node.withText input name) =
      front ++ name ++ back) : WritesUndefined setting node input := by
  refine ⟨branch, state, [front, back], Nat.le_refl 2, ?_, fun name _ => ?_⟩
  · rw [hopen, String.intercalate_cons_cons, String.intercalate_singleton]
  · rw [hgiven, String.intercalate_cons_cons, String.intercalate_singleton]

/-- Statements that are longer with any name for an input do not hold `undefined` for it. -/
theorem not_writesUndefined {input : String} (h : ∀ branch state name, name ≠ unresolved →
      (textAfter setting branch state node).length <
        (textAfter setting branch state (node.withText input name)).length) :
    ¬ WritesUndefined setting node input := by
  rintro ⟨branch, state, pieces, -, hopen, hgiven⟩
  -- A name as long as `undefined` would leave the length as it is.
  have hsame := Text.length_intercalate_eq (by decide : unresolved.length = "otherwise".length) pieces
  have hlonger := h branch state "otherwise" (by decide)
  rw [hopen, hgiven "otherwise" (by decide)] at hlonger
  omega

/-- A memory read leaves its default out. -/
theorem not_writesUndefined_default {settings : Kind.Memory}
    (hkind : node.kind = .memoryRead settings) (hnone : node.input? "default" = none)
    (hdefault : settings.default.isUndefined = true) :
    ¬ WritesUndefined setting node "default" := by
  refine not_writesUndefined fun branch state name _ => ?_
  have htext (node : Node) (hkind : node.kind = .memoryRead settings) :
      textAfter setting branch state node =
        joinLines ((settings.emitRead node).run state.context).2.lines := by
    simp only [textAfter, dispatch, hkind]
    rfl
  rw [htext node hkind, htext (node.withText "default" name) hkind]
  exact settings.length_emitRead_lt hnone hdefault name state.context

theorem textAfter_market {settings : Kind.Market} (hkind : node.kind = .market settings)
    (branch : List String → Walk Unit) (state : Walk.State) :
    textAfter setting branch state node =
      joinLines ((settings.emit node).run state.context).2.lines := by
  simp only [textAfter, dispatch, hkind]
  rfl

/-- An order leaves its price and its amount out. -/
theorem not_writesUndefined_order {settings : Kind.Market} (hkind : node.kind = .market settings)
    (hmode : settings.mode ≠ .deal) {input : String} (hnone : node.input? input = none)
    (hopen : input = "price" ∧ settings.price = none ∨ input = "amount" ∧ settings.amount = none) :
    ¬ WritesUndefined setting node input := by
  refine not_writesUndefined fun branch state name hname => ?_
  have hgiven : (node.withText input name).kind = .market settings := hkind
  rw [textAfter_market hkind, textAfter_market hgiven]
  obtain ⟨rfl, hprice⟩ | ⟨rfl, hamount⟩ := hopen
  · exact settings.length_emit_lt_of_price hmode hprice hnone hname state.context
  · exact settings.length_emit_lt_of_amount hmode hamount hnone hname state.context

/-- A deal does not leave its amount out. -/
theorem writesUndefined_deal (setting : Setting) {settings : Kind.Market}
    (hkind : node.kind = .market settings) (hmode : settings.mode = .deal)
    (hnone : node.input? "amount" = none) (hamount : settings.amount = none) :
    WritesUndefined setting node "amount" := by
  obtain ⟨front, back, hopen, hgiven⟩ := settings.emit_deal_text hmode hamount hnone {}
  refine writesUndefined_of_split (fun _ => pure ()) {} front back ?_ fun name => ?_
  · rw [textAfter_market hkind]
    exact hopen
  · have hkind : (node.withText "amount" name).kind = .market settings := hkind
    rw [textAfter_market hkind]
    exact hgiven name

/-- A look-up does not leave its id out. -/
theorem writesUndefined_byId (setting : Setting) {settings : Kind.ById}
    (hkind : node.kind = .byId settings) (hnone : node.input? "id" = none)
    (hid : settings.id = none) : WritesUndefined setting node "id" := by
  have htext (node : Node) (hkind : node.kind = .byId settings) :
      textAfter setting (fun _ => pure ()) {} node =
        joinLines ((settings.emit node).run {}).2.lines := by
    simp only [textAfter, dispatch, hkind]
    rfl
  let name := Context.nextName {} "obj"
  let line (call : String) : Line := ⟨0, s!"const {name} = {call};"⟩
  have hline (text : String) : joinLines [line s!"Game.getObjectById({text})"] =
      ("const " ++ name ++ " = Game.getObjectById(") ++ text ++ ");\n" := by
    simp [line, joinLines, Line.render, toString, ← String.toList_inj]
  refine writesUndefined_of_split (fun _ => pure ()) {}
    ("const " ++ name ++ " = Game.getObjectById(") ");\n" ?_ fun text => ?_
  · rw [htext node hkind, ← hline]
    unfold Kind.ById.emit
    simp only [StateT.run_bind, Emit.input_of_none hnone, hid]
    rfl
  · have hkind : (node.withText "id" text).kind = .byId settings := hkind
    rw [htext _ hkind, ← hline]
    unfold Kind.ById.emit
    simp only [Emit.input_withText_self]
    rfl

/-- An open input that statements hold `undefined` for is required, or it is the amount of a deal. -/
theorem WritesUndefined.required_or_deal {input : String} (h : WritesUndefined setting node input)
    (hnone : node.input? input = none) (hopen : input ∈ node.kind.openInputs) :
    input ∈ node.kind.requiredInputs ∨ node.kind.isDeal = true ∧ input = "amount" := by
  cases hkind : node.kind with
  | memoryRead settings =>
      have hdefault : settings.default.isUndefined = true ∧ input = "default" := by
        simpa [hkind, Kind.openInputs] using hopen
      obtain ⟨hdefault, rfl⟩ := hdefault
      exact absurd h (not_writesUndefined_default hkind hnone hdefault)
  | market settings =>
      by_cases hmode : settings.mode = .deal
      · have hamount : settings.amount = none ∧ input = "amount" := by
          simpa [hkind, Kind.openInputs, hmode] using hopen
        exact .inr ⟨by simp [Kind.isDeal, hmode], hamount.2⟩
      · have hleft : input = "price" ∧ settings.price = none ∨
            input = "amount" ∧ settings.amount = none := by
          simpa [hkind, Kind.openInputs, hmode, and_comm, or_comm] using hopen
        exact absurd h (not_writesUndefined_order hkind hmode hnone hleft)
  | _ =>
      rw [hkind] at hopen
      exact .inl hopen

end Emission

end TickScript
