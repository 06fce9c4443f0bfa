import Mathlib.Logic.Relation
import TickScript.Proofs.Emission.Parallel

/-!
# Evolution of a context

Whatever is written, a context is changed in a few ways only. `Context.Step` lists them, and
`Context.Evolves` says that one context became another by such steps. This holds of the statements of
built-in kinds and of everything that an emitter may ask for. `Context.Extends` says what stays.
-/

namespace TickScript.Emission

open Relation (ReflTransGen)

/-! ## Contexts -/

namespace Context

/-- One change of a context. -/
inductive Step : Context → Context → Prop where
  | issue (context : Context) (stem : String) : Step context (context.issue stem)
  | push (context : Context) (text : String) : Step context (context.push text)
  | enter (context : Context) : Step context context.enter
  | exit (context : Context) : Step context context.exit
  | takeLines (context : Context) : Step context context.takeLines
  | record (context : Context) (nodeId expr : String) : Step context (context.record nodeId expr)
  | ask (context : Context) (consumer source port : String) :
      Step context (context.ask consumer source port)
  | standIn (context : Context) (nodeId input : String) (literal : Literal) :
      Step context (context.standIn nodeId input literal)
  | withImport (context : Context) (symbol module : String) :
      Step context (context.withImport symbol module)
  | warn (context : Context) (nodeId message : String) : Step context (context.warn nodeId message)
  | absorb (context finished : Context) : Step context (context.absorb finished)

/-- One context became another by changes of these sorts. -/
abbrev Evolves : Context → Context → Prop := ReflTransGen Step

end Context

/-! ## Actions on contexts -/

/-- An action changes contexts in these ways only. -/
def Emit.Evolves {α : Type} (action : Emit α) : Prop :=
  ∀ context : Context, context.Evolves (action.run context).2

namespace Emit

variable {α β : Type}

theorem Evolves.bind {action : Emit α} {next : α → Emit β} (haction : Evolves action)
    (hnext : ∀ value, Evolves (next value)) : Evolves (action >>= next) := fun context =>
  (haction context).trans (hnext _ _)

theorem Evolves.skip (value : α) : Evolves (pure value) := fun _ => .refl

theorem fresh_evolves (stem : String) : Evolves (fresh stem) := fun context =>
  .single (.issue context stem)

theorem say_evolves (text : String) : Evolves (say text) := fun context =>
  .single (.push context text)

theorem warn_evolves (nodeId message : String) : Evolves (warn nodeId message) := fun context =>
  .single (.warn context nodeId message)

theorem produce_evolves (nodeId expr : String) : Evolves (produce nodeId expr) := fun context =>
  .single (.record context nodeId expr)

theorem require_evolves (symbol module : String) : Evolves (require symbol module) := fun context =>
  .single (.withImport context symbol module)

theorem resolve_evolves (consumer : String) (port : Option Port) (fallback : Literal) :
    Evolves (resolve consumer port fallback) := by
  intro context
  match port with
  | none => exact .refl
  | some (.literal value) => exact .refl
  | some (.edge source name) =>
      have hasked := ReflTransGen.single (Context.Step.ask context consumer source name)
      rw [resolve_edge]
      cases context.valueOf? source with
      | some expr => exact hasked
      | none => exact hasked.tail (.warn _ _ _)

theorem input_evolves (node : Node) (name : String) (fallback : Literal) :
    Evolves (input node name fallback) := by
  cases hport : node.input? name with
  | none =>
      intro context
      rw [input_of_none hport]
      exact .single (.standIn _ _ _ _)
  | some port =>
      rw [input_of_some hport]
      exact resolve_evolves _ _ _

/-- What is put together from the actions of statements makes a context evolve. -/
theorem Parallel.evolves {rename : String → String} {node : Node} {action action' : Emit α}
    (h : Parallel rename node action action') : Evolves action := by
  induction h with
  | pure value => exact .skip value
  | bind _ _ ih ihnext => exact ih.bind ihnext
  | fresh stem => exact fresh_evolves stem
  | say text => exact say_evolves text
  | enter => exact fun context => .single (.enter context)
  | exit => exact fun context => .single (.exit context)
  | require symbol module _ => exact require_evolves symbol module
  | actor => exact fun _ => .refl
  | warn message _ => exact warn_evolves _ message
  | input name fallback => exact input_evolves _ name fallback
  | produce expr => exact produce_evolves _ expr

theorem bind_evolves (stem expr : String) : Evolves (bind stem expr) :=
  (@Parallel.hold id { id := "", kind := .start } stem expr).evolves

end Emit

/-- To grant a request makes a context evolve. -/
theorem Request.perform_evolves (request : Request) : Emit.Evolves request.perform := by
  intro context
  cases request with
  | look => exact .refl
  | fresh stem => exact Emit.fresh_evolves stem context
  | say text => exact Emit.say_evolves text context
  | enter => exact .single (.enter context)
  | exit => exact .single (.exit context)
  | takeLines => exact .single (.takeLines context)
  | bind stem expr => exact Emit.bind_evolves stem expr context
  | produce nodeId expr => exact Emit.produce_evolves nodeId expr context
  | resolve consumer port fallback => exact Emit.resolve_evolves consumer port fallback context
  | input node name fallback => exact Emit.input_evolves node name fallback context
  | require symbol module => exact Emit.require_evolves symbol module context
  | warn nodeId message => exact Emit.warn_evolves nodeId message context
  | absorb finished => exact .single (.absorb context finished)

/-! ## What stays -/

namespace Context

theorem written_push (context : Context) (text : String) :
    context.written <+: (context.push text).written := by
  simp [written, push]

/-- To take lines away does not unwrite them. -/
theorem written_takeLines (context : Context) : context.takeLines.written = context.written :=
  List.append_nil _

/-- What has been written, given out and recorded in a context is there in a later one. -/
structure Extends (context final : Context) : Prop where
  written : context.written <+: final.written
  names : context.names <:+ final.names
  accesses : context.accesses <:+ final.accesses

variable {context middle final : Context}

namespace Extends

theorem refl (context : Context) : context.Extends context :=
  ⟨List.prefix_rfl, List.suffix_rfl, List.suffix_rfl⟩

theorem trans (h : context.Extends middle) (hlater : middle.Extends final) :
    context.Extends final :=
  ⟨h.written.trans hlater.written, h.names.trans hlater.names, h.accesses.trans hlater.accesses⟩

end Extends

theorem Step.extends (h : Step context final) : context.Extends final := by
  cases h with
  | issue stem => exact ⟨List.prefix_rfl, List.suffix_cons _ _, List.suffix_rfl⟩
  | push text => exact ⟨context.written_push text, List.suffix_rfl, List.suffix_rfl⟩
  | takeLines =>
      exact ⟨context.written_takeLines ▸ List.prefix_rfl, List.suffix_rfl, List.suffix_rfl⟩
  | record | ask => exact ⟨List.prefix_rfl, List.suffix_rfl, List.suffix_cons _ _⟩
  | enter | exit | standIn | withImport | warn | absorb =>
      exact ⟨List.prefix_rfl, List.suffix_rfl, List.suffix_rfl⟩

/-- What has happened stays as a context evolves. -/
theorem Evolves.extends (h : context.Evolves final) : context.Extends final := by
  induction h with
  | refl => exact .refl _
  | tail _ hstep ih => exact ih.trans hstep.extends

end Context

end TickScript.Emission
