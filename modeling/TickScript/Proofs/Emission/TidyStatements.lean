import TickScript.Emission.Flow
import TickScript.Proofs.Emission.Tidy

/-!
# Tidy statements

The statements of every kind close all brackets that they open, and are of one line each, if the texts
of the settings suit. Each proof goes along the actions of its emitter and reads every line, with the
expressions in it left out, since they fit. What is left are the constants of the line, which are read
under both disciplines.
-/

namespace TickScript.Kind

open TickScript.Text TickScript.Emission Emission.Emit
open Text.Discipline (fits_iff turns_iff scan_text_append fits_repr)

variable {discipline : Discipline} {branches : List String} {node : Node}
  (hnode : TidyInputs discipline node)

/-! ## Queries -/

theorem Comparison.harmless_operator {op : Comparison} {operator : String}
    (h : op.operator? = some operator) : Harmless operator := by
  cases op <;> cases h <;> decide

/-- The texts of a filter can be put into a condition. -/
def Filter.Tidy (discipline : Discipline) (filter : Filter) : Prop :=
  (∀ field ∈ filter.field, discipline.Admits field) ∧ filter.value.Tidy discipline

theorem Search.tidy_filters {settings : Search} (h : (Kind.search settings).Suits discipline) :
    ∀ filter ∈ settings.filters, filter.Tidy discipline := by
  intro filter hfilter
  have htexts {text : String} (htext : text ∈ filter.field.toList ++ filter.value.texts) :
      text ∈ settings.texts :=
    List.mem_cons_of_mem _ (List.mem_flatMap.2 ⟨filter, hfilter, htext⟩)
  refine ⟨fun field hfield => h.admits field (htexts ?_), Literal.tidy_of_suits (h.mono ?_ ?_)⟩
  · exact List.mem_append_left _ (Option.mem_toList.2 hfield)
  · exact fun text htext =>
      List.mem_cons_of_mem _ (List.mem_flatMap.2 ⟨filter, hfilter, htext⟩)
  · exact fun text htext => htexts (List.mem_append_right _ htext)

theorem Filter.fits_condition {filter : Filter} {object : String} (hobject : discipline.Fits object)
    (h : filter.Tidy discipline) : discipline.Fits (filter.condition object) := by
  have hvalue := h.2.fits_render
  have htrue : discipline.Fits "true" := (by decide : Harmless "true") discipline
  unfold Filter.condition
  split
  · next field op hfield _ =>
    have hmember : discipline.Fits (memberPath object field) :=
      Discipline.fits_memberPath hobject (h.1 field hfield)
    split
    · exact htrue
    · dsimp only
      split
      · next operator hoperator =>
        simp only [fits_iff, toString, scan_text_append, hmember.scan, hvalue.scan,
          (Comparison.harmless_operator hoperator discipline).scan]
        cases discipline <;> decide
      · split
        · simp only [fits_iff, toString, scan_text_append, hvalue.atom.scan, hmember.scan]
          cases discipline <;> decide
        · exact htrue
  · exact htrue

theorem fits_lookArea {look position radius : String} (hlook : discipline.Fits look)
    (hposition : discipline.Fits position) (hradius : discipline.Fits radius) :
    discipline.Fits (lookArea look position radius) := by
  have hreceiver : discipline.Turns [] (discipline.inside ')')
      s!"Game.rooms[{position}.roomName].lookForAtArea({look}, " := by
    simp only [turns_iff, toString, scan_text_append, hposition.scan, hlook.scan]
    cases discipline <;> decide
  have hlow : discipline.Turns (discipline.inside ')') (discipline.inside ')')
      s!"Math.max(0, {position}.y - {radius}), Math.max(0, {position}.x - {radius}), " := by
    simp only [turns_iff, toString, scan_text_append, hposition.scan, hradius.scan]
    cases discipline <;> decide
  have hhigh : discipline.Turns (discipline.inside ')') []
      s!"Math.min(49, {position}.y + {radius}), Math.min(49, {position}.x + {radius}), true)" := by
    simp only [turns_iff, toString, scan_text_append, hposition.scan, hradius.scan]
    cases discipline <;> decide
  exact (hreceiver.append hlow).append hhigh

theorem Search.call_tidy {settings : Search} {room : String} (hroom : discipline.Fits room)
    (hfind : discipline.Fits settings.find)
    (hfilters : ∀ filter ∈ settings.filters, filter.Tidy discipline) :
    Tidy discipline branches (settings.call room) discipline.Fits := by
  unfold Search.call
  dsimp only
  split
  · refine .pure ?_
    simp only [fits_iff, toString, scan_text_append, hroom.atom.scan, hfind.scan]
    cases discipline <;> decide
  · refine (fresh_tidy (by decide)).bind fun object hobject => .pure ?_
    have hconditions := Discipline.fits_intercalate ((by decide : Harmless " && ") discipline)
      (List.forall_mem_map.2 fun filter hfilter =>
        Filter.fits_condition hobject (hfilters filter hfilter))
    simp only [fits_iff, toString, scan_text_append, hroom.atom.scan, hfind.scan, hobject.scan,
      hconditions.scan]
    cases discipline <;> decide

include hnode

theorem Search.emit_tidy {settings : Search} (h : (Kind.search settings).Suits discipline) :
    Tidy discipline branches (settings.emit node) fun _ => True := by
  have hfind := h.fits settings.find List.mem_cons_self
  refine (actorMember_tidy (by decide)).bind fun _ hmember => ?_
  refine (input_tidy hnode _ hmember).bind fun room hroom => ?_
  refine (settings.call_tidy hroom hfind (tidy_filters h)).bind fun found hfound => ?_
  refine (define_tidy (by decide) ((hfound.append ?_).append ?_)).bind fun _ _ => .skip _
  · split
    · simp only [fits_iff, toString, scan_text_append, (fits_repr _).scan]
      cases discipline <;> decide
    · cases discipline <;> decide
  · split <;> cases discipline <;> decide

theorem ById.emit_tidy {settings : ById} (h : (Kind.byId settings).Suits discipline) :
    Tidy discipline branches (settings.emit node) fun _ => True := by
  refine (input_tidy hnode _ ?_).bind fun id hid => ?_
  · split
    · next id hid => exact .text (h.admits id (Option.mem_toList.2 hid)).quote
    · exact .undefined
  refine (define_tidy (by decide) ?_).bind fun _ _ => .skip _
  simp only [fits_iff, toString, scan_text_append, hid.scan]
  cases discipline <;> decide

theorem Look.emit_tidy {settings : Look} (h : (Kind.look settings).Suits discipline) :
    Tidy discipline branches (settings.emit node) fun _ => True := by
  have hlook := h.fits settings.look List.mem_cons_self
  refine (actorMember_tidy (by decide)).bind fun _ hmember => ?_
  refine (input_tidy hnode _ hmember).bind fun position hposition => ?_
  refine (fresh_tidy (by decide)).bind fun name hname => ?_
  cases settings.mode with
  | point =>
      refine (say_tidy ?_).bind fun _ _ => produce_tidy _ hname
      simp only [fits_iff, toString, scan_text_append, hname.scan, hposition.atom.scan, hlook.scan]
      cases discipline <;> decide
  | area =>
      refine (input_tidy hnode _ (.number _)).bind fun radius hradius => ?_
      refine (bind_tidy (by decide) hposition).bind fun position hposition => ?_
      exact (say_tidy (fits_const hname (fits_lookArea hlook hposition hradius.atom))).bind
        fun _ _ => produce_tidy _ hname

theorem Best.emitClosest_tidy (settings : Best) {list : String} (hlist : discipline.Fits list) :
    Tidy discipline branches (settings.emitClosest node list) discipline.Fits := by
  have hfinder : Harmless settings.strategy.finder := by cases settings.strategy <;> decide
  refine (actorMember_tidy (by decide)).bind fun _ hmember => ?_
  refine (input_tidy hnode _ hmember).bind fun origin horigin => ?_
  refine (require_tidy hfinder (by decide)).bind fun finder hfinder => ?_
  refine (fresh_tidy (by decide)).bind fun best hbest => ?_
  refine (say_tidy ?_).bind fun _ _ => .pure hbest
  simp only [fits_iff, toString, scan_text_append, hbest.scan, hfinder.scan, horigin.scan, hlist.scan]
  cases discipline <;> decide

omit hnode in
theorem Best.emitExtreme_tidy {settings : Best} (h : (Kind.best settings).Suits discipline)
    {list : String} (hlist : discipline.Fits list) :
    Tidy discipline branches (settings.emitExtreme list) discipline.Fits := by
  refine (fresh_tidy (by decide)).bind fun best hbest => ?_
  refine (fresh_tidy (by decide)).bind fun score hscore => ?_
  refine (fresh_tidy (by decide)).bind fun candidate hcandidate => ?_
  refine (fresh_tidy (by decide)).bind fun value hvalue => ?_
  have hoperator : discipline.Fits (if settings.strategy = .min then "<" else ">") := by
    split <;> cases discipline <;> decide
  have hlet {name : String} (hname : discipline.Fits name) :
      discipline.Fits s!"let {name} = null;" := by
    simp only [fits_iff, toString, scan_text_append, hname.scan]
    cases discipline <;> decide
  have hset {name value : String} (hname : discipline.Fits name) (hvalue : discipline.Fits value) :
      discipline.Fits s!"{name} = {value};" := by
    simp only [fits_iff, toString, scan_text_append, hname.scan, hvalue.scan]
    cases discipline <;> decide
  refine (say_tidy (hlet hbest)).bind fun _ _ => (say_tidy (hlet hscore)).bind fun _ _ => ?_
  refine (block_tidy ?_ ?_).bind fun _ _ => .pure hbest
  · simp only [fits_iff, toString, scan_text_append, hcandidate.scan, hlist.scan]
    cases discipline <;> decide
  · refine (say_tidy ?_).bind fun _ _ => (say_tidy (fits_const hvalue ?_)).bind fun _ _ => ?_
    · simp only [fits_iff, toString, scan_text_append, hcandidate.scan]
      cases discipline <;> decide
    · split
      · next path hpath =>
        exact Discipline.fits_memberPath hcandidate (h.admits path (Option.mem_toList.2 hpath))
      · exact hcandidate
    · refine block_tidy ?_ ((say_tidy (hset hbest hcandidate)).bind fun _ _ =>
        say_tidy (hset hscore hvalue))
      simp only [fits_iff, toString, scan_text_append, hscore.scan, hvalue.scan, hoperator.scan]
      cases discipline <;> decide

theorem Best.emit_tidy {settings : Best} (h : (Kind.best settings).Suits discipline) :
    Tidy discipline branches (settings.emit node) fun _ => True := by
  refine (input_tidy hnode _ (.list (List.forall_mem_nil _))).bind fun list hlist => ?_
  cases settings.strategy with
  | range | path =>
      exact (settings.emitClosest_tidy hnode hlist).bind fun _ hbest => produce_tidy _ hbest
  | min | max => exact (settings.emitExtreme_tidy h hlist).bind fun _ hbest => produce_tidy _ hbest

/-! ## Actions -/

theorem targetInput_tidy {configured : Literal} {defaultTarget : Option String} {actor : String}
    (hconfigured : configured.Tidy discipline) (hdefault : ∀ member ∈ defaultTarget, Harmless member)
    (hactor : discipline.Fits actor) :
    Tidy discipline branches (targetInput node configured defaultTarget actor) discipline.Fits := by
  refine input_tidy hnode _ ?_
  split
  · next member => exact .text (fits_member hactor (hdefault member rfl))
  · exact hconfigured

omit hnode in
theorem approach_tidy {result actor target : String} (hresult : discipline.Fits result)
    (hactor : discipline.Fits actor) (htarget : discipline.Fits target) :
    Tidy discipline branches (approach result actor target) fun _ => True := by
  refine (require_tidy (by decide) (by decide)).bind fun travel htravel => ?_
  refine block_tidy ?_ (say_tidy ?_)
  · simp only [fits_iff, toString, scan_text_append, hresult.scan]
    cases discipline <;> decide
  · simp only [fits_iff, toString, scan_text_append, htravel.scan, hactor.scan, htarget.scan]
    cases discipline <;> decide

theorem Move.emit_tidy {settings : Move} (h : settings.target.Tidy discipline) :
    Tidy discipline branches (settings.emit node) fun _ => True := by
  refine (actorInput_tidy hnode).bind fun actor hactor => ?_
  refine (targetInput_tidy hnode h (by simp) hactor).bind fun target htarget => ?_
  refine (require_tidy (by decide) (by decide)).bind fun travel htravel => ?_
  refine (define_tidy (by decide) ?_).bind fun _ _ => .skip _
  split
  · simp only [fits_iff, toString, scan_text_append, htravel.scan, hactor.scan, htarget.scan,
      (fits_repr _).scan]
    cases discipline <;> decide
  · simp only [fits_iff, toString, scan_text_append, htravel.scan, hactor.scan, htarget.scan]
    cases discipline <;> decide

omit hnode in
/-- A call of a method that a form names. -/
theorem fits_call {actor method target : String} (hactor : discipline.Fits actor)
    (hmethod : Harmless method) (htarget : discipline.Fits target) :
    discipline.Fits s!"{atom actor}.{method}({target})" := by
  simp only [fits_iff, toString, scan_text_append, hactor.atom.scan, (hmethod discipline).scan,
    htarget.scan]
  cases discipline <;> decide

/-- The texts of a form can stand between others. -/
def ActionForm.Tidy (form : ActionForm) : Prop :=
  Harmless form.stem ∧ Harmless form.method ∧ ∀ member ∈ form.defaultTarget, Harmless member

instance (form : ActionForm) : Decidable form.Tidy := inferInstanceAs (Decidable (_ ∧ _ ∧ _))

theorem Work.emit_tidy {settings : Work} {form : ActionForm} (hform : form.Tidy)
    (h : settings.target.Tidy discipline) :
    Tidy discipline branches (settings.emit form node) fun _ => True := by
  obtain ⟨hstem, hmethod, hdefault⟩ := hform
  refine (actorInput_tidy hnode).bind fun actor hactor => ?_
  refine (targetInput_tidy hnode h hdefault hactor).bind fun target htarget => ?_
  cases settings.moveCloser with
  | true =>
      refine (bind_tidy (by decide) htarget).bind fun target htarget => ?_
      exact (define_tidy hstem (fits_call hactor hmethod htarget)).bind fun _ hresult =>
        approach_tidy hresult hactor htarget
  | false =>
      refine (Turns.pure htarget).bind fun target htarget => ?_
      exact (define_tidy hstem (fits_call hactor hmethod htarget)).bind fun _ _ => .skip _

theorem Target.emit_tidy {settings : Target} {form : ActionForm} (hform : form.Tidy)
    (h : settings.target.Tidy discipline) :
    Tidy discipline branches (settings.emit form node) fun _ => True := by
  obtain ⟨hstem, hmethod, hdefault⟩ := hform
  refine (actorInput_tidy hnode).bind fun actor hactor => ?_
  refine (targetInput_tidy hnode h hdefault hactor).bind fun target htarget => ?_
  exact (define_tidy hstem (fits_call hactor hmethod htarget)).bind fun _ _ => .skip _

omit hnode in
theorem fits_transferArguments {target resource : String} (htarget : discipline.Fits target)
    (hresource : discipline.Fits resource) (amount : Option Nat) :
    discipline.Fits (transferArguments target resource amount) := by
  cases amount with
  | some amount =>
      simp only [fits_iff, transferArguments, toString, scan_text_append, htarget.scan,
        hresource.scan, (fits_repr _).scan]
      cases discipline <;> decide
  | none =>
      simp only [fits_iff, transferArguments, toString, scan_text_append, htarget.scan,
        hresource.scan]
      cases discipline <;> decide

theorem Transfer.emit_tidy {settings : Transfer} (h : (Kind.transfer settings).Suits discipline) :
    Tidy discipline branches (settings.emit node) fun _ => True := by
  have hresource := h.fits settings.resource List.mem_cons_self
  have htarget : settings.target.Tidy discipline :=
    Literal.tidy_of_suits (h.mono (List.subset_cons_self _ _) (List.subset_cons_self _ _))
  have hcall {actor target : String} (hactor : discipline.Fits actor)
      (htarget : discipline.Fits target) : discipline.Fits
        s!"{atom actor}.transfer({transferArguments target settings.resource settings.amount})" := by
    simp only [fits_iff, toString, scan_text_append, hactor.atom.scan,
      (fits_transferArguments htarget hresource settings.amount).scan]
    cases discipline <;> decide
  refine (actorInput_tidy hnode).bind fun actor hactor => ?_
  refine (targetInput_tidy hnode htarget (by decide) hactor).bind fun target htarget => ?_
  cases settings.fallback with
  | move =>
      refine (bind_tidy (by decide) htarget).bind fun target htarget => ?_
      exact (define_tidy (by decide) (hcall hactor htarget)).bind fun _ hresult =>
        approach_tidy hresult hactor htarget
  | none =>
      refine (Turns.pure htarget).bind fun target htarget => ?_
      exact (define_tidy (by decide) (hcall hactor htarget)).bind fun _ _ => .skip _
  | drop =>
      refine (Turns.pure htarget).bind fun target htarget => ?_
      refine (define_tidy (by decide) (hcall hactor htarget)).bind fun result hresult => ?_
      refine block_tidy ?_ (say_tidy ?_)
      · simp only [fits_iff, toString, scan_text_append, hresult.scan]
        cases discipline <;> decide
      · simp only [fits_iff, toString, scan_text_append, hactor.atom.scan, hresource.scan]
        cases discipline <;> decide

theorem Withdraw.emit_tidy {settings : Withdraw} (h : (Kind.withdraw settings).Suits discipline) :
    Tidy discipline branches (settings.emit node) fun _ => True := by
  have hresource := h.fits settings.resource List.mem_cons_self
  have htarget : settings.target.Tidy discipline :=
    Literal.tidy_of_suits (h.mono (List.subset_cons_self _ _) (List.subset_cons_self _ _))
  refine (actorInput_tidy hnode).bind fun actor hactor => ?_
  refine (targetInput_tidy hnode htarget (by decide) hactor).bind fun target htarget => ?_
  refine (bind_tidy (by decide) htarget).bind fun target htarget => ?_
  refine (define_tidy (by decide) ?_).bind fun _ hresult => approach_tidy hresult hactor htarget
  simp only [fits_iff, toString, scan_text_append, hactor.atom.scan,
    (fits_transferArguments htarget hresource settings.amount).scan]
  cases discipline <;> decide

/-! ## Structures -/

omit hnode in
theorem tidy_objectById {id : Option String} (h : ∀ text ∈ id.toList, discipline.Admits text) :
    (objectById id).Tidy discipline := by
  cases id with
  | none => exact .undefined
  | some id =>
      refine .text ?_
      simp only [fits_iff, toString, scan_text_append, (h id List.mem_cons_self).quote.scan]
      cases discipline <;> decide

theorem Link.emit_tidy {settings : Link} (h : (Kind.link settings).Suits discipline) :
    Tidy discipline branches (settings.emit node) fun _ => True := by
  obtain ⟨hsource, htarget⟩ := List.forall_mem_append.1 h.admits
  refine (input_tidy hnode _ (tidy_objectById hsource)).bind fun source hsource => ?_
  refine (input_tidy hnode _ (tidy_objectById htarget)).bind fun target htarget => ?_
  refine (bind_tidy (by decide) hsource).bind fun source hsource => ?_
  have htransfer {arguments : String} (harguments : discipline.Fits arguments) : discipline.Fits
      s!"{source} && {source}.cooldown === 0 ? {source}.transferEnergy({arguments}) : ERR_TIRED" := by
    simp only [fits_iff, toString, scan_text_append, hsource.scan, harguments.scan]
    cases discipline <;> decide
  refine (define_tidy (by decide) (htransfer ?_)).bind fun _ _ => .skip _
  split
  · simp only [fits_iff, toString, scan_text_append, htarget.scan, (fits_repr _).scan]
    cases discipline <;> decide
  · exact htarget

namespace Market

theorem orderCall_tidy {settings : Market} (h : (Kind.market settings).Suits discipline)
    {terminal : String} (hterminal : discipline.Fits terminal) {amount : Literal}
    (hamount : amount.Tidy discipline) :
    Tidy discipline branches (settings.orderCall node terminal amount) discipline.Fits := by
  have horder : discipline.Fits (if settings.mode = .buy then "ORDER_BUY" else "ORDER_SELL") := by
    split <;> cases discipline <;> decide
  have hroom : discipline.Fits s!"{terminal}.room.name" := by
    simp only [fits_iff, toString, scan_text_append, hterminal.scan]
    cases discipline <;> decide
  have hcall {fields : String} (hfields : discipline.Fits fields) :
      discipline.Fits s!"Game.market.createOrder({fields})" := by
    simp only [fits_iff, toString, scan_text_append, hfields.scan]
    cases discipline <;> decide
  have hkeys : ∀ key ∈ ["type", "resourceType", "price", "totalAmount", "roomName"],
      Harmless (propertyKey key) := by decide
  refine (optionalInput_tidy hnode _ ?_).bind fun price hprice => .pure (hcall ?_)
  · split
    · exact .number _
    · exact .undefined
  refine Literal.fits_settingsObject ?_
  have hresource := h.fits settings.resource List.mem_cons_self
  simp only [List.forall_mem_cons, List.not_mem_nil, false_implies, implies_true, and_true] at hkeys ⊢
  obtain ⟨htypeKey, hresourceKey, hpriceKey, hamountKey, hroomKey⟩ := hkeys
  exact ⟨⟨htypeKey _, .text horder⟩, ⟨hresourceKey _, .text hresource⟩, ⟨hpriceKey _, hprice⟩,
    ⟨hamountKey _, hamount⟩, ⟨hroomKey _, .text hroom⟩⟩

theorem dealCall_tidy {settings : Market} (h : (Kind.market settings).Suits discipline)
    {terminal : String} (hterminal : discipline.Fits terminal) {amount : Literal}
    (hamount : amount.Tidy discipline) :
    Tidy discipline branches (settings.dealCall node terminal amount) discipline.Fits := by
  refine (optionalInput_tidy hnode _ ?_).bind fun order horder => ?_
  · split
    · next id hid =>
      exact .text (h.admits id (List.mem_cons_of_mem _ (Option.mem_toList.2 hid))).quote
    · exact .undefined
  refine .guarded (warn_tidy _ _) fun _ => .pure ?_
  simp only [fits_iff, toString, scan_text_append, horder.fits_render.scan,
    hamount.fits_render.scan, hterminal.scan]
  cases discipline <;> decide

theorem emit_tidy {settings : Market} (h : (Kind.market settings).Suits discipline) :
    Tidy discipline branches (settings.emit node) fun _ => True := by
  refine (actorMember_tidy (by decide)).bind fun _ hmember => ?_
  refine (input_tidy hnode _ hmember).bind fun terminal hterminal => ?_
  refine (bind_tidy (by decide) hterminal).bind fun terminal hterminal => ?_
  refine (optionalInput_tidy hnode _ ?_).bind fun amount hamount => ?_
  · split
    · exact .number _
    · exact .undefined
  have htrade {call : String} (hcall : discipline.Fits call) : Tidy discipline branches (do
      let result ← Emit.fresh "market"
      Emit.say s!"let {result} = ERR_NOT_FOUND;"
      Emit.block s!"if ({terminal})" do
        Emit.say s!"{result} = {call};"
      Emit.produce node.id result) fun _ => True := by
    refine (fresh_tidy (by decide)).bind fun result hresult => ?_
    refine (say_tidy ?_).bind fun _ _ => (block_tidy ?_ (say_tidy ?_)).bind fun _ _ =>
      produce_tidy _ hresult
    · simp only [fits_iff, toString, scan_text_append, hresult.scan]
      cases discipline <;> decide
    · simp only [fits_iff, toString, scan_text_append, hterminal.scan]
      cases discipline <;> decide
    · simp only [fits_iff, toString, scan_text_append, hresult.scan, hcall.scan]
      cases discipline <;> decide
  cases settings.mode with
  | buy | sell => exact (orderCall_tidy hnode h hterminal hamount).bind fun _ hcall => htrade hcall
  | deal => exact (dealCall_tidy hnode h hterminal hamount).bind fun _ hcall => htrade hcall

end Market

namespace Tower

omit hnode

theorem harmless_name (action : TowerAction) : Harmless action.name := by
  cases action <;> decide

theorem fits_findTarget (settings : Tower) {tower : String} (htower : discipline.Fits tower)
    (action : TowerAction) : discipline.Fits (settings.findTarget tower action) := by
  have hshare (share : Binary64) : discipline.Fits share.scriptText :=
    Discipline.harmless_of_isNumeral share.isNumeral_scriptText discipline
  cases action with
  | attack =>
      simp only [fits_iff, findTarget, toString, scan_text_append, htower.scan]
      cases discipline <;> decide
  | heal | repair =>
      simp only [fits_iff, findTarget, toString, scan_text_append, htower.scan, (hshare _).scan]
      cases discipline <;> decide

theorem emitAction_tidy (settings : Tower) {tower chosen target : String}
    (htower : discipline.Fits tower) (hchosen : discipline.Fits chosen)
    (htarget : discipline.Fits target) (action : TowerAction) :
    Tidy discipline branches (settings.emitAction tower chosen target action) fun _ => True := by
  have haction := harmless_name action discipline
  refine block_tidy ?_ (.guarded (say_tidy ?_) fun _ => ?_)
  · simp only [fits_iff, toString, scan_text_append, hchosen.scan, haction.quote.scan]
    cases discipline <;> decide
  · simp only [fits_iff, toString, scan_text_append, htower.scan, (fits_repr _).scan]
    cases discipline <;> decide
  · refine (say_tidy (fits_const htarget (settings.fits_findTarget htower action))).bind
      fun _ _ => say_tidy ?_
    simp only [fits_iff, toString, scan_text_append, htarget.scan, htower.scan, haction.scan]
    cases discipline <;> decide

include hnode in
theorem emit_tidy (settings : Tower) :
    Tidy discipline branches (settings.emit node) fun _ => True := by
  refine (actorMember_tidy (by decide)).bind fun _ hmember => ?_
  refine (input_tidy hnode _ hmember).bind fun room hroom => ?_
  have horder : discipline.Fits
      (listing ((distinct settings.priorities).map fun action => quote action.name)) :=
    Discipline.fits_listing (List.forall_mem_map.2 fun action _ => (harmless_name action _).quote)
  have hloop {name list : String} (hname : discipline.Fits name) (hlist : discipline.Fits list) :
      discipline.Fits s!"for (const {name} of {list})" := by
    simp only [fits_iff, toString, scan_text_append, hname.scan, hlist.scan]
    cases discipline <;> decide
  refine .guarded (warn_tidy _ _) fun _ => ?_
  refine (fresh_tidy (by decide)).bind fun towers htowers => ?_
  refine (fresh_tidy (by decide)).bind fun tower htower => ?_
  refine (fresh_tidy (by decide)).bind fun chosen hchosen => ?_
  refine (fresh_tidy (by decide)).bind fun target htarget => (say_tidy ?_).bind fun _ _ => ?_
  · simp only [fits_iff, toString, scan_text_append, htowers.scan, hroom.atom.scan]
    cases discipline <;> decide
  · have hactions : Tidy discipline branches ((distinct settings.priorities).forM
        (settings.emitAction tower chosen target)) fun _ => True :=
      .forM fun action _ => settings.emitAction_tidy htower hchosen htarget action
    exact (block_tidy (hloop htower htowers) (block_tidy (hloop hchosen horder) hactions)).bind
      fun _ _ => produce_tidy _ htowers

end Tower

/-! ## Spawns -/

namespace Spawn

omit hnode

theorem harmless_constant (part : BodyPart) : Harmless part.constant := by
  cases part <;> decide

theorem fits_constants (parts : List BodyPart) :
    ∀ constant ∈ parts.map (·.constant), discipline.Fits constant :=
  List.forall_mem_map.2 fun part _ => harmless_constant part discipline

theorem fits_partsList (parts : List BodyPart) : discipline.Fits (partsList parts) :=
  Discipline.fits_listing (fits_constants parts)

/-- A body is held in a constant. -/
theorem holdParts_tidy (parts : List BodyPart) : Tidy discipline branches (do
    let body ← Emit.fresh "body"
    Emit.say s!"const {body} = {partsList parts};"
    return body) discipline.Fits :=
  (fresh_tidy (by decide)).bind fun _ hbody =>
    (say_tidy (fits_const hbody (fits_partsList parts))).bind fun _ _ => .pure hbody

theorem fits_weightRow (part : BodyPart) (weight : Nat) :
    discipline.Fits (weightRow part weight) := by
  simp only [fits_iff, weightRow, toString, scan_text_append,
    (harmless_constant part discipline).scan, (fits_repr weight).scan]
  cases discipline <;> decide

theorem emitFilled_tidy (settings : Spawn) (weights : List (BodyPart × Nat)) {spawn : String}
    (hspawn : discipline.Fits spawn) :
    Tidy discipline branches (settings.emitFilled weights spawn) discipline.Fits := by
  have hrows {rows : List String} (hrows : ∀ row ∈ rows, discipline.Fits row) :
      discipline.Fits s!"for (const [part, weight] of {listing rows})" := by
    simp only [fits_iff, toString, scan_text_append, (Discipline.fits_listing hrows).scan]
    cases discipline <;> decide
  have hfallback : discipline.Fits (", ".intercalate (settings.fixedParts.map (·.constant))) :=
    Discipline.fits_commas (fits_constants _)
  have hlimit : discipline.Fits (Nat.repr (max 1 (min settings.maxParts bodyLimit))) := fits_repr _
  refine (fresh_tidy (by decide)).bind fun body hbody => ?_
  refine (fresh_tidy (by decide)).bind fun budget hbudget => ?_
  refine (fresh_tidy (by decide)).bind fun added hadded => ?_
  refine (say_tidy ?_).bind fun _ _ => (say_tidy ?_).bind fun _ _ => (say_tidy ?_).bind fun _ _ => ?_
  · simp only [fits_iff, toString, scan_text_append, hbody.scan]
    cases discipline <;> decide
  · simp only [fits_iff, toString, scan_text_append, hbudget.scan, hspawn.atom.scan]
    cases discipline <;> decide
  · simp only [fits_iff, toString, scan_text_append, hadded.scan]
    cases discipline <;> decide
  refine (block_tidy ?_ ?_).bind fun _ _ => (say_tidy ?_).bind fun _ _ => .pure hbody
  · simp only [fits_iff, toString, scan_text_append, hadded.scan, hbody.scan, hlimit.scan]
    cases discipline <;> decide
  · refine (say_tidy ?_).bind fun _ _ => block_tidy ?_ (block_tidy ?_ ?_)
    · simp only [fits_iff, toString, scan_text_append, hadded.scan]
      cases discipline <;> decide
    · exact hrows (List.forall_mem_map.2 fun row _ => fits_weightRow row.1 row.2)
    · simp only [fits_iff, toString, scan_text_append, hbody.scan, hlimit.scan]
      cases discipline <;> decide
    · refine (say_tidy ?_).bind fun _ _ => (say_tidy ?_).bind fun _ _ =>
        (say_tidy ?_).bind fun _ _ => say_tidy ?_
      · simp only [fits_iff, toString, scan_text_append, hbudget.scan]
        cases discipline <;> decide
      · simp only [fits_iff, toString, scan_text_append, hbody.scan]
        cases discipline <;> decide
      · simp only [fits_iff, toString, scan_text_append, hbudget.scan]
        cases discipline <;> decide
      · simp only [fits_iff, toString, scan_text_append, hadded.scan]
        cases discipline <;> decide
  · simp only [fits_iff, toString, scan_text_append, hbody.scan, hfallback.scan]
    cases discipline <;> decide

theorem emitWeighted_tidy (settings : Spawn) {spawn : String} (hspawn : discipline.Fits spawn) :
    Tidy discipline branches (settings.emitWeighted node spawn) discipline.Fits := by
  unfold emitWeighted
  dsimp only
  split
  · exact (warn_tidy _ _).bind fun _ _ => holdParts_tidy _
  · exact settings.emitFilled_tidy _ hspawn

include hnode in
theorem emitSelection_tidy (settings : Spawn) {spawn : String} (hspawn : discipline.Fits spawn)
    (lowest : Nat) :
    Tidy discipline branches (settings.emitSelection node spawn lowest) discipline.Fits := by
  have hlevel : discipline.Fits s!"{atom spawn}.room.controller.level" := by
    simp only [fits_iff, toString, scan_text_append, hspawn.atom.scan]
    cases discipline <;> decide
  have htiers : discipline.Fits (listing (settings.presets.keys.map Nat.repr)) :=
    Discipline.fits_listing (List.forall_mem_map.2 fun tier _ => fits_repr tier)
  refine (input_tidy hnode _ (.text hlevel)).bind fun level hlevel => ?_
  refine (fresh_tidy (by decide)).bind fun presets hpresets => ?_
  refine (fresh_tidy (by decide)).bind fun tier htier => ?_
  refine (fresh_tidy (by decide)).bind fun body hbody => ?_
  refine (say_tidy (fits_const hpresets ?_)).bind fun _ _ => (say_tidy ?_).bind fun _ _ => ?_
  · refine Literal.Tidy.fits_render (Literal.tidy_map_iff.2 (List.forall_mem_map.2 fun entry _ => ?_))
    exact ⟨(fits_repr entry.1).propertyKey, .text (fits_partsList entry.2)⟩
  · simp only [fits_iff, toString, scan_text_append, htier.scan, (fits_repr lowest).scan]
    cases discipline <;> decide
  refine (block_tidy ?_ (say_tidy ?_)).bind fun _ _ => (say_tidy ?_).bind fun _ _ => .pure hbody
  · simp only [fits_iff, toString, scan_text_append, htiers.scan]
    cases discipline <;> decide
  · simp only [fits_iff, toString, scan_text_append, hlevel.atom.scan, htier.scan]
    cases discipline <;> decide
  · simp only [fits_iff, toString, scan_text_append, hbody.scan, hpresets.scan, htier.scan]
    cases discipline <;> decide

include hnode in
theorem emitPreset_tidy (settings : Spawn) {spawn : String} (hspawn : discipline.Fits spawn) :
    Tidy discipline branches (settings.emitPreset node spawn) discipline.Fits := by
  unfold emitPreset
  split
  · exact (warn_tidy _ _).bind fun _ _ => holdParts_tidy _
  · split
    · exact holdParts_tidy _
    · exact settings.emitSelection_tidy hnode hspawn _

theorem tidy_memoryTemplate {template : Literal} (h : template.Tidy discipline) :
    (memoryTemplate template).Tidy discipline := by
  have hempty : (Literal.map []).Tidy discipline :=
    Literal.tidy_map_iff.2 (List.forall_mem_nil _)
  unfold memoryTemplate
  split
  · next entries =>
    have hentries := Literal.tidy_map_iff.1 h
    refine Literal.Tidy.quoteTexts (Literal.tidy_map_iff.2 (List.forall_mem_append.2 ⟨hentries, ?_⟩))
    split
    · exact List.forall_mem_nil _
    · split
      · next kind hkind =>
        obtain ⟨before, after, hsplit, -⟩ := List.lookup_eq_some_iff.1 hkind
        have htype := hentries ("type", kind) (by simp [hsplit])
        have hrole : Harmless (propertyKey "role") := by decide
        exact List.forall_mem_singleton.2 ⟨hrole _, htype.2⟩
      · exact List.forall_mem_nil _
  · exact hempty
  · exact hempty
  · exact h

theorem tidy_spawnFallback {settings : Spawn}
    (h : ∀ name ∈ settings.spawn.toList, discipline.Admits name) :
    settings.spawnFallback.Tidy discipline := by
  unfold spawnFallback
  split
  · next name hname =>
    refine .text ?_
    simp only [fits_iff, toString, scan_text_append, (h name (Option.mem_toList.2 hname)).quote.scan]
    cases discipline <;> decide
  · exact .text ((by decide : Harmless "Object.values(Game.spawns)[0]") _)

include hnode in
theorem emit_tidy {settings : Spawn} (h : (Kind.spawn settings).Suits discipline) :
    Tidy discipline branches (settings.emit node) fun _ => True := by
  obtain ⟨hname, hrest⟩ := List.forall_mem_cons.1 h.admits
  obtain ⟨hspawn, hadmits⟩ := List.forall_mem_append.1 hrest
  have hmemory : settings.memory.Tidy discipline := Literal.tidy_of_suits ⟨h.fits, hadmits⟩
  have hname : discipline.Fits s!"{quote settings.name} + Game.time" := by
    simp only [fits_iff, toString, scan_text_append, hname.quote.scan]
    cases discipline <;> decide
  refine (input_tidy hnode _ (tidy_spawnFallback hspawn)).bind fun spawn hspawn => ?_
  refine (bind_tidy (by decide) hspawn).bind fun spawn hspawn => ?_
  have hspawned {body : String} (hbody : discipline.Fits body) : Tidy discipline branches (do
      let name ← Emit.input node "name" (.text s!"{quote settings.name} + Game.time")
      let memory ← Emit.input node "memory" (memoryTemplate settings.memory)
      let _ ← Emit.define node "spawned"
        s!"{atom spawn}.spawnCreep({body}, {name}, \x7b memory: {memory} \x7d)") fun _ => True := by
    refine (input_tidy hnode _ (.text hname)).bind fun name hname => ?_
    refine (input_tidy hnode _ (tidy_memoryTemplate hmemory)).bind fun memory hmemory => ?_
    refine (define_tidy (by decide) ?_).bind fun _ _ => .skip _
    simp only [fits_iff, toString, scan_text_append, hspawn.atom.scan, hbody.scan, hname.scan,
      hmemory.scan]
    cases discipline <;> decide
  cases settings.body with
  | fixed => exact (holdParts_tidy _).bind fun _ hbody => hspawned hbody
  | weighted => exact (settings.emitWeighted_tidy hspawn).bind fun _ hbody => hspawned hbody
  | preset => exact (settings.emitPreset_tidy hnode hspawn).bind fun _ hbody => hspawned hbody

end Spawn

/-! ## Memory and tasks -/

omit hnode

/-- The expressions of a memory location fit. -/
structure Location.Tidy (discipline : Discipline) (location : Location) : Prop where
  base : discipline.Fits location.base
  keys : ∀ key ∈ location.keys, discipline.Fits key

namespace Location

variable {location : Location}

/-- An access to some keys, one after the other. -/
theorem fits_access {opener base : String} {keys : List String} (hbase : discipline.Fits base)
    (hopener : Harmless (opener ++ "]")) (hkeys : ∀ key ∈ keys, discipline.Fits key) :
    discipline.Fits (keys.foldl (fun access key => access ++ opener ++ key ++ "]") base) := by
  induction keys generalizing base with
  | nil => exact hbase
  | cons key keys ih =>
      obtain ⟨hkey, hkeys⟩ := List.forall_mem_cons.1 hkeys
      refine ih ?_ hkeys
      -- Since the key fits, one more access is read like the brackets around it.
      have hempty := hopener discipline
      simp only [fits_iff, scan_text_append, hbase.scan, hkey.scan, Option.bind_some,
        Option.bind_fun_some] at hempty ⊢
      exact hempty

theorem Tidy.optional (h : location.Tidy discipline) : discipline.Fits location.optional :=
  fits_access h.base (by decide : Harmless ("?.[" ++ "]")) h.keys

theorem Tidy.direct (h : location.Tidy discipline) (length : Nat) :
    discipline.Fits (location.direct length) :=
  fits_access h.base (by decide : Harmless ("[" ++ "]")) fun key hkey =>
    h.keys key (List.mem_of_mem_take hkey)

end Location

namespace Memory

include hnode in
theorem locate_tidy {settings : Memory} (h : discipline.Admits settings.path) :
    Tidy discipline branches (settings.locate node) (Location.Tidy discipline) := by
  have hpath : ∀ key ∈ (splitPath settings.path).map quote, discipline.Fits key :=
    List.forall_mem_map.2 fun segment hsegment => (h.of_mem_splitPath hsegment).quote
  have hbase : discipline.Fits "Memory" := (by decide : Harmless "Memory") discipline
  unfold locate
  cases settings.scope with
  | global => exact .pure ⟨hbase, hpath⟩
  | room =>
      refine (actorMember_tidy (by decide)).bind fun _ hmember => ?_
      refine (input_tidy hnode _ hmember).bind fun room hroom => ?_
      refine (bind_tidy (by decide) hroom).bind fun room hroom => .pure ?_
      have hname : discipline.Fits s!"{room}.name" := by
        simp only [fits_iff, toString, scan_text_append, hroom.scan]
        cases discipline <;> decide
      have hrooms : Harmless (quote "rooms") := by decide
      refine ⟨hbase, List.forall_mem_append.2 ⟨?_, hpath⟩⟩
      exact List.forall_mem_cons.2 ⟨hrooms _, List.forall_mem_singleton.2 hname⟩
  | actor =>
      refine (actorInput_tidy hnode).bind fun actor hactor => .pure ⟨?_, hpath⟩
      simp only [fits_iff, toString, scan_text_append, hactor.scan]
      cases discipline <;> decide

include hnode in
theorem emitRead_tidy {settings : Memory} (h : (Kind.memoryRead settings).Suits discipline) :
    Tidy discipline branches (settings.emitRead node) fun _ => True := by
  obtain ⟨hpath, hrest⟩ := List.forall_mem_cons.1 h.admits
  have hdefault : settings.default.Tidy discipline :=
    Literal.tidy_of_suits ⟨h.fits, (List.forall_mem_append.1 hrest).1⟩
  refine (locate_tidy hnode hpath).bind fun location hlocation => ?_
  refine (input_tidy hnode _ hdefault).bind fun default hdefault => ?_
  refine (define_tidy (by decide) ?_).bind fun _ _ => .skip _
  split
  · exact hlocation.optional
  · simp only [fits_iff, toString, scan_text_append, hlocation.optional.scan, hdefault.scan]
    cases discipline <;> decide

theorem emitParents_tidy {location : Location} (h : location.Tidy discipline) :
    Tidy discipline branches (emitParents location) fun _ => True := by
  refine .forM fun length _ => say_tidy ?_
  simp only [fits_iff, toString, scan_text_append, (h.direct length).scan]
  cases discipline <;> decide

theorem emitStore_tidy (settings : Memory) {location : Location} (h : location.Tidy discipline)
    {value : String} (hvalue : discipline.Fits value) :
    Tidy discipline branches (settings.emitStore location value) fun _ => True := by
  have htarget := h.direct location.keys.length
  unfold emitStore
  dsimp only
  split
  · refine (fresh_tidy (by decide)).bind fun old hold => ?_
    refine (say_tidy (fits_const hold htarget)).bind fun _ _ => say_tidy (.append ?_ ?_)
    · simp only [fits_iff, toString, scan_text_append, htarget.scan, hold.scan]
      cases discipline <;> decide
    · simp only [fits_iff, toString, scan_text_append, hold.scan, hvalue.scan]
      cases discipline <;> decide
  · refine say_tidy ?_
    simp only [fits_iff, toString, scan_text_append, htarget.scan, hvalue.scan]
    cases discipline <;> decide

include hnode in
theorem emitWrite_tidy {settings : Memory} (h : (Kind.memoryWrite settings).Suits discipline) :
    Tidy discipline branches (settings.emitWrite node) fun _ => True := by
  obtain ⟨hpath, hrest⟩ := List.forall_mem_cons.1 h.admits
  have hvalue : settings.value.Tidy discipline :=
    Literal.tidy_of_suits ⟨h.fits, (List.forall_mem_append.1 hrest).2⟩
  refine (locate_tidy hnode hpath).bind fun location hlocation => ?_
  split
  · exact warn_tidy _ _
  · refine (input_tidy hnode _ hvalue).bind fun value hvalue => ?_
    refine (bind_tidy (by decide) hvalue).bind fun value hvalue => ?_
    exact (emitParents_tidy hlocation).bind fun _ _ =>
      (settings.emitStore_tidy hlocation hvalue).bind fun _ _ => produce_tidy _ hvalue

include hnode in
theorem emitDelete_tidy {settings : Memory} (h : (Kind.memoryDelete settings).Suits discipline) :
    Tidy discipline branches (settings.emitDelete node) fun _ => True := by
  refine (locate_tidy hnode (h.admits _ List.mem_cons_self)).bind fun location hlocation => ?_
  split
  · exact warn_tidy _ _
  · refine (say_tidy ?_).bind fun _ _ => produce_tidy _ ((by decide : Harmless "true") _)
    simp only [fits_iff, toString, scan_text_append, hlocation.optional.scan]
    cases discipline <;> decide

end Memory

theorem TaskCall.tidy_arguments {configured : Literal} (h : configured.Tidy discipline)
    {actor : String} (hactor : discipline.Fits actor) :
    (arguments configured actor).Tidy discipline := by
  have hkey : Harmless (propertyKey "creep") := by decide
  have hcreep : discipline.Fits (propertyKey "creep") ∧ (Literal.text actor).Tidy discipline :=
    ⟨hkey _, .text hactor⟩
  unfold arguments
  split
  · exact Literal.tidy_map_iff.2 (List.forall_mem_singleton.2 hcreep)
  · exact Literal.tidy_map_iff.2 (List.forall_mem_singleton.2 hcreep)
  · split
    · exact h
    · exact Literal.tidy_map_iff.2 (List.forall_mem_cons.2 ⟨hcreep, Literal.tidy_map_iff.1 h⟩)
  · exact h

include hnode in
theorem TaskCall.emit_tidy {settings : TaskCall} (h : settings.args.Tidy discipline) :
    Tidy discipline branches (settings.emit node) fun _ => True := by
  refine (actorInput_tidy hnode).bind fun actor hactor => ?_
  refine (input_tidy hnode _ (tidy_arguments h hactor)).bind fun args hargs => ?_
  refine (define_tidy (by decide) ?_).bind fun _ _ => .skip _
  simp only [fits_iff, toString, scan_text_append, (Discipline.fits_taskIdentifier _).scan, hargs.scan]
  cases discipline <;> decide

include hnode in
theorem Return.emit_tidy {settings : Return} (h : settings.value.Tidy discipline) :
    Tidy discipline branches (settings.emit node) fun _ => True := by
  unfold Return.emit
  split
  · exact say_tidy ((by decide : Harmless "return;") _)
  · refine (input_tidy hnode _ h).bind fun value hvalue => say_tidy ?_
    simp only [fits_iff, toString, scan_text_append, hvalue.scan]
    cases discipline <;> decide

end TickScript.Kind
