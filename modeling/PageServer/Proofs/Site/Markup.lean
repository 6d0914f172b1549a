/-
# Pages without foreign markup

What a request says of itself gets into the variables of a page, and templates
write variables as they are. Still no request brings markup into the page of a
controller that every site has: an address for mail that was only tried is
escaped, that of a user was checked when the account was made, the names of the
controller and the module are registered ones, and messages are fixed texts.

* `Auth.messages`: the texts that messages are made of
* `Variables.Clean`, `Visit.Clean`: variables and visits that hold no foreign markup
* `Visit.Leads`: a step keeps this, and what it leads to
* `Visit.leads_render`, `Auth.leads_login`, …: the steps of the controllers
* `Site.clean_of_entered`: a visit is clean when it begins
* `Site.markup_of_reachable`: and so is the page that is made for it
-/
import PageServer.Proofs.Html.Plain
import PageServer.Proofs.Site.Answering
import PageServer.Proofs.Template.Mentions

namespace PageServer

/-! ## Variables -/

/-- The texts that messages about forms are made of. -/
def Auth.messages : List Text :=
  ["Email is required", "Email must be a valid email address", "Password must contain a number",
    "Password must contain an uppercase character", "Password must contain alpha characters",
    "Password must contain a special character", "Password must be between 5 and 40 characters",
    "both passwords must match", "The details you provided are incorrect.",
    "An account already exists with that email."]

namespace Variables

/-- The variables that hold texts of a request, or of who makes it and who answers it. -/
def ofRequest : List Text :=
  ["ATTEMPTED_EMAIL", "USER_EMAIL", "USER_ROLE", "CONTROLLER", "MODULE"]

/-- A value that a variable may have: those of a request are plain texts, and the one for messages
is made of fixed texts. -/
structure Allows (name : Text) (value : Value) : Prop where
  plain : name ∈ ofRequest → ∃ t, value = .str t ∧ Html.IsPlain t
  fixed : name = "ERROR_MESSAGE" → ∃ messages, messages ⊆ Auth.messages ∧
    value = .str (Text.join "<br>" messages)

/-- Variables that have only such values. -/
def Clean (vars : Variables) : Prop :=
  ∀ name value, Table.get? name vars.fields = some value → Allows name value

/-- A name without a colon, and a value for it that is allowed and is no map. -/
structure Sets (pair : Text × Value) : Prop where
  name : ':' ∉ pair.1
  value : ∀ fields, pair.2 ≠ .map fields
  allows : Allows pair.1 pair.2

/-- Such a value may be set. -/
theorem Clean.set {vars : Variables} (h : vars.Clean) {name : Text} {value : Value}
    (hsets : Sets (name, value)) : (vars.set name value).Clean := by
  have hleaves : leaves name value = [(name, value)] := by
    cases value with
    | map fields => exact absurd rfl (hsets.value fields)
    | null | bool | int | float | str | rows => rfl
  intro other there hother
  by_cases hname : other = name
  · subst hname
    rw [Variables.set, hleaves, List.foldl_cons, List.foldl_nil, setOne,
      Text.splitOn_of_not_mem hsets.name, assign] at hother
    split_ifs at hother
    · rw [Table.get?_insert_self] at hother
      rw [← Option.some.inj hother]
      exact hsets.allows
    · exact h other there hother
  · have hpart : Text.firstPart ':' name ≠ other := by
      have hhead := Text.head?_splitOn ':' name
      rw [Text.splitOn_of_not_mem hsets.name] at hhead
      rw [← Option.some.inj hhead]
      exact Ne.symm hname
    rw [get?_set hpart] at hother
    exact h other there hother

/-- A variable that neither holds a text of a request nor messages may have any value but a map. -/
theorem sets_of_other {name : Text} {value : Value} (hname : ':' ∉ name)
    (hother : name ∉ "ERROR_MESSAGE".toList :: ofRequest) (hvalue : ∀ fields, value ≠ .map fields) :
    Sets (name, value) := by
  obtain ⟨herror, hrequest⟩ := not_or.mp (List.mem_cons.not.mp hother)
  exact ⟨hname, hvalue, ⟨fun hmem => absurd hmem hrequest, fun heq => absurd heq herror⟩⟩

/-- A variable that does not hold messages may be a plain text. -/
theorem sets_of_isPlain {name t : Text} (hname : ':' ∉ name) (hother : name ≠ "ERROR_MESSAGE")
    (ht : Html.IsPlain t) : Sets (name, .str t) :=
  ⟨hname, nofun, ⟨fun _ => ⟨t, rfl, ht⟩, fun heq => absurd heq hother⟩⟩

end Variables

/-- Setting allowed values keeps the variables of a template clean. -/
theorem Template.clean_setMany {t : Template} (h : t.vars.Clean) {pairs : List (Text × Value)}
    (hpairs : ∀ pair ∈ pairs, Variables.Sets pair) : (t.setMany pairs).vars.Clean := by
  induction pairs generalizing t with
  | nil => exact h
  | cons pair pairs ih =>
      obtain ⟨hpair, hrest⟩ := List.forall_mem_cons.mp hpairs
      exact ih (h.set hpair) hrest

/-- Loading leaves the variables of a template. -/
theorem Template.vars_load (t : Template) (name : Text) (v : Views) :
    (t.load name v).2.1.vars = t.vars := by
  unfold load
  split
  · rfl
  · split
    · rfl
    · split
      · rfl
      · split <;> rfl

/-- Making a tree leaves the variables of a template. -/
theorem Template.vars_parse {t parsed : Template} {v after : Views}
    (h : Action.run t.parse v = (.ok parsed, after)) : parsed.vars = t.vars := by
  unfold parse at h
  split at h
  · rw [← Except.ok.inj (Prod.mk.inj h).1]
  · split_ifs at h
    · rcases hnodes : Action.run (Node.parse Views.load t.source t.name) v with ⟨_ | nodes, w⟩
      · rw [Action.run_bind_of_error hnodes] at h
        exact absurd (Prod.mk.inj h).1 nofun
      · rw [Action.run_bind_of_ok hnodes, Action.run_bind_of_ok (Action.run_modify _ _)] at h
        rw [← Except.ok.inj (Prod.mk.inj h).1]
    · exact absurd (Prod.mk.inj h).1 nofun

/-- Making a page leaves the variables, and the page is that of the template as it is then. -/
theorem Template.compile_frame (t : Template) (v : Views) :
    (t.compile v).2.1.vars = t.vars ∧ ∀ html, (t.compile v).1 = .ok html →
      (t.compile v).2.1.render (t.compile v).2.2.constants = .ok html := by
  unfold compile
  rcases hparse : Action.run t.parse v with ⟨_ | parsed, after⟩
  · exact ⟨rfl, nofun⟩
  · have hvars := vars_parse hparse
    dsimp only
    cases hrender : parsed.render after.constants with
    | error fault => exact ⟨hvars, nofun⟩
    | ok output =>
        refine ⟨hvars, ?_⟩
        intro html hhtml
        rw [← hhtml]
        exact hrender

/-! ## Visits -/

/-- A user of whom templates say nothing with markup. -/
def User.IsPlain (user : User) : Prop := Html.IsPlain user.email ∧ Html.IsPlain user.role

namespace Visit

/-- A visit that brings no markup of a request into its page: its variables are clean, and so are
the texts that may be set as variables later on. -/
structure Clean (v : Visit) : Prop where
  vars : v.template.vars.Clean
  user : v.user.IsPlain
  controller : Html.IsPlain (v.route.controller.getD [])
  module : Html.IsPlain (v.route.module.getD [])
  accounts : ∀ account ∈ v.stores.directory, account.user.IsPlain

/-- A step leaves a clean visit, and if it gives a result this and the visit are in a relation. -/
structure Leads {α : Type} (v : Visit) (step : Visiting α) (result : α → Visit → Prop) : Prop where
  clean : (Action.run step v).2.Clean
  result : ∀ a, (Action.run step v).1 = .ok a → result a (Action.run step v).2

variable {α β : Type} {v : Visit} {step : Visiting α}

/-- Two steps in a row. -/
theorem Leads.bind {middle : α → Visit → Prop} {last : β → Visit → Prop}
    {next : α → Visiting β} (h : v.Leads step middle)
    (hnext : ∀ a w, w.Clean → middle a w → w.Leads (next a) last) :
    v.Leads (step >>= next) last := by
  rcases Action.after_bind step next v with ⟨halt, -, hrun⟩ | ⟨a, ha, hrun⟩
  · constructor
    · rw [hrun]
      exact h.clean
    · rw [hrun]
      exact nofun
  · have hlast := hnext a _ h.clean (h.result a ha)
    constructor
    · rw [hrun]
      exact hlast.clean
    · rw [hrun]
      exact hlast.result

/-- What a result is mapped to. -/
theorem Leads.map {middle : α → Visit → Prop} {last : β → Visit → Prop} {f : α → β}
    (h : v.Leads step middle) (hf : ∀ a w, middle a w → last (f a) w) :
    v.Leads (f <$> step) last := by
  rw [← bind_pure_comp]
  exact h.bind fun a w hw ha => ⟨hw, fun _ hb => Except.ok.inj hb ▸ hf a w ha⟩

theorem leads_pure (h : v.Clean) {result : α → Visit → Prop} {a : α} (ha : result a v) :
    v.Leads (pure a) result :=
  ⟨h, fun _ hb => Except.ok.inj hb ▸ ha⟩

theorem leads_get (h : v.Clean) : v.Leads get fun a w => a = v ∧ w = v :=
  ⟨h, fun _ ha => ⟨(Except.ok.inj ha).symm, rfl⟩⟩

theorem leads_fail (h : v.Clean) (fault : Fault) (result : α → Visit → Prop) :
    v.Leads (Visiting.fail fault) result :=
  ⟨h, nofun⟩

/-! ## Steps on the page -/

/-- A step on the template that leaves its variables. -/
theorem leads_onTemplate (h : v.Clean)
    {step : Template → Views → Except Fault α × Template × Views}
    (hvars : (step v.template v.stores.views).2.1.vars = v.template.vars) :
    v.Leads (Visiting.onTemplate step) fun a w =>
      (step v.template v.stores.views).1 = .ok a ∧
        w.template = (step v.template v.stores.views).2.1 ∧
        w.stores.views = (step v.template v.stores.views).2.2 := by
  constructor
  · refine ⟨?_, h.user, h.controller, h.module, h.accounts⟩
    exact hvars ▸ h.vars
  · intro a ha
    refine ⟨?_, rfl, rfl⟩
    simp only [Visiting.onTemplate, Action.run_mk] at ha
    cases hresult : (step v.template v.stores.views).1 with
    | error fault =>
        rw [hresult] at ha
        contradiction
    | ok b =>
        rw [hresult] at ha
        rw [Except.ok.inj ha]

theorem leads_setTemplate (h : v.Clean) (name : Text) :
    v.Leads (Visiting.setTemplate name) fun _ _ => True :=
  ⟨(leads_onTemplate h (Template.vars_load _ _ _)).clean, fun _ _ => trivial⟩

theorem leads_setTitle (h : v.Clean) (title : Text) :
    v.Leads (Visiting.setTitle title) fun _ _ => True :=
  ⟨⟨h.vars, h.user, h.controller, h.module, h.accounts⟩, fun _ _ => trivial⟩

theorem leads_set (h : v.Clean) {name : Text} {value : Value}
    (hsets : Variables.Sets (name, value)) :
    v.Leads (Visiting.set name value) fun _ _ => True :=
  ⟨⟨h.vars.set hsets, h.user, h.controller, h.module, h.accounts⟩, fun _ _ => trivial⟩

theorem leads_setMany (h : v.Clean) {pairs : List (Text × Value)}
    (hpairs : ∀ pair ∈ pairs, Variables.Sets pair) :
    v.Leads (Visiting.setMany pairs) fun _ _ => True :=
  ⟨⟨Template.clean_setMany h.vars hpairs, h.user, h.controller, h.module, h.accounts⟩,
    fun _ _ => trivial⟩

theorem leads_link (h : v.Clean) (path : Text) :
    v.Leads (Visiting.link path) fun _ _ => True :=
  ⟨h, fun _ _ => trivial⟩

/-- What every page says of a clean visit may be set. -/
theorem sets_commonVariables (h : v.Clean) :
    ∀ pair ∈ Visiting.commonVariables v, Variables.Sets pair := by
  have hpage : ∀ pair ∈ ([("PAGE_TITLE", .str (v.title.getD
        (Text.capitalize (v.route.controller.getD [])))),
      ("DEBUG_MODE", .bool v.settings.debug)] : List (Text × Value)), Variables.Sets pair := by
    simp only [List.forall_mem_cons, List.not_mem_nil, false_imp_iff, implies_true, and_true]
    exact ⟨Variables.sets_of_other (by decide) (by decide) nofun,
      Variables.sets_of_other (by decide) (by decide) nofun⟩
  have huser : ∀ pair ∈ v.user.description, Variables.Sets pair := by
    simp only [User.description, List.forall_mem_cons, List.not_mem_nil, false_imp_iff,
      implies_true, and_true]
    exact ⟨Variables.sets_of_other (by decide) (by decide) nofun,
      Variables.sets_of_other (by decide) (by decide) nofun,
      Variables.sets_of_isPlain (by decide) (by decide) h.user.1,
      Variables.sets_of_other (by decide) (by decide) nofun,
      Variables.sets_of_isPlain (by decide) (by decide) h.user.2⟩
  have hanswering : ∀ pair ∈ ([("CONTROLLER", .str (v.route.controller.getD [])),
      ("MODULE", .str (v.route.module.getD []))] : List (Text × Value)),
      Variables.Sets pair := by
    simp only [List.forall_mem_cons, List.not_mem_nil, false_imp_iff, implies_true, and_true]
    exact ⟨Variables.sets_of_isPlain (by decide) (by decide) h.controller,
      Variables.sets_of_isPlain (by decide) (by decide) h.module⟩
  exact List.forall_mem_append.mpr ⟨List.forall_mem_append.mpr ⟨hpage, huser⟩, hanswering⟩

/-- An outcome that is a page is the page of the template of the visit. -/
def Shows (outcome : Outcome) (w : Visit) : Prop :=
  ∀ code html, outcome = .page code html →
    w.template.render w.stores.views.constants = .ok html

theorem leads_render (h : v.Clean) : v.Leads Visiting.render Shows := by
  unfold Visiting.render
  refine (leads_get h).bind ?_
  rintro _ w hw ⟨rfl, rfl⟩
  split
  · refine (leads_setMany hw (sets_commonVariables hw)).bind ?_
    intro _ w hw _
    obtain ⟨hvars, hrender⟩ := w.template.compile_frame w.stores.views
    refine (leads_onTemplate hw hvars).bind ?_
    rintro html w' hw' ⟨hhtml, htemplate, hviews⟩
    apply leads_pure hw'
    intro code page hpage
    obtain ⟨-, rfl⟩ := Outcome.page.inj hpage
    rw [htemplate, hviews]
    exact hrender html hhtml
  · exact leads_fail hw _ _

theorem leads_infoPage (h : v.Clean) (title message kind : Text) (link : Option (Text × Text)) :
    v.Leads (Visiting.infoPage title message kind link) Shows := by
  unfold Visiting.infoPage
  refine (leads_setTemplate h _).bind ?_
  intro _ w hw _
  refine (leads_setMany hw ?_).bind ?_
  · cases link
    all_goals
      simp only [List.forall_mem_cons, List.not_mem_nil, false_imp_iff, implies_true, and_true]
      exact ⟨Variables.sets_of_other (by decide) (by decide) nofun,
        Variables.sets_of_other (by decide) (by decide) nofun,
        Variables.sets_of_other (by decide) (by decide) nofun,
        Variables.sets_of_other (by decide) (by decide) nofun⟩
  · intro _ w hw _
    exact (leads_setTitle hw title).bind fun _ w hw _ => leads_render hw

/-- Messages are shown that are fixed texts. -/
theorem leads_errorDisplay (h : v.Clean) {messages : List Text}
    (hfixed : messages ⊆ Auth.messages) : v.Leads (Visiting.errorDisplay messages) Shows := by
  have hname : ':' ∉ "ERROR_MESSAGE".toList ∧ "ERROR_MESSAGE".toList ∉ Variables.ofRequest := by
    decide
  refine (leads_set h ?_).bind fun _ w hw _ => leads_render hw
  exact ⟨hname.1, nofun,
    ⟨fun hmem => absurd hmem hname.2, fun _ => ⟨messages, hfixed, rfl⟩⟩⟩

/-- An outcome, if there is one, shows the page of the visit. -/
def ShowsIf (outcome : Option Outcome) (w : Visit) : Prop :=
  ∀ shown ∈ outcome, Shows shown w

theorem leads_some {step : Visiting Outcome} (h : v.Leads step Shows) :
    v.Leads (some <$> step) ShowsIf :=
  h.map fun _ _ hshows _ hsome => Option.some.inj hsome ▸ hshows

theorem leads_none (h : v.Clean) : v.Leads (pure none) ShowsIf := leads_pure h nofun

/-- What a controller does at its steps it does when it answers a request. -/
theorem leads_serve {controller : Controller}
    (hprepare : ∀ v : Visit, v.Clean → v.Leads controller.prepare fun _ _ => True)
    (hbefore : ∀ v : Visit, v.Clean → v.Leads controller.before ShowsIf)
    (hhandler : ∀ v : Visit, v.Clean → ∀ route, v.Leads (controller.handler route) ShowsIf)
    (h : v.Clean) : v.Leads controller.serve Shows := by
  unfold Controller.serve
  refine (hprepare v h).bind fun _ w hw _ => ?_
  refine (hbefore w hw).bind fun outcome w hw hshows => ?_
  cases outcome with
  | some outcome => exact leads_pure hw (hshows outcome rfl)
  | none =>
      refine (leads_get hw).bind ?_
      rintro _ w hw ⟨rfl, rfl⟩
      refine (hhandler w hw _).bind fun outcome w hw hshows => ?_
      cases outcome with
      | some outcome => exact leads_pure hw (hshows outcome rfl)
      | none => exact leads_render hw

/-! ## Steps on the stores -/

theorem leads_askSessions (h : v.Clean) (ask : Sessions → α × Sessions) :
    v.Leads (Visiting.askSessions ask) fun _ _ => True := by
  refine ⟨?_, fun _ _ => trivial⟩
  unfold Visiting.askSessions
  rw [Action.run_mk]
  split
  · exact h
  · exact ⟨h.vars, h.user, h.controller, h.module, h.accounts⟩

/-- A question to the accounts that leaves plain ones. -/
theorem leads_askDirectory (h : v.Clean) {ask : Directory → Except Abort (α × Directory)}
    {result : α → Visit → Prop}
    (hask : ∀ answer directory, ask v.stores.directory = .ok (answer, directory) →
      (∀ account ∈ directory, account.user.IsPlain) ∧ ∀ w, result answer w) :
    v.Leads (Visiting.askDirectory ask) result := by
  unfold Visiting.askDirectory
  constructor
  · rw [Action.run_mk]
    split
    · exact h
    · split
      · rename_i answer directory hanswer
        exact ⟨h.vars, h.user, h.controller, h.module, (hask answer directory hanswer).1⟩
      · exact h
  · intro a ha
    rw [Action.run_mk] at ha
    split at ha
    · contradiction
    · split at ha
      · rename_i answer directory hanswer
        obtain rfl := Except.ok.inj ha
        exact (hask answer directory hanswer).2 _
      · contradiction

theorem leads_lookUp (h : v.Clean) (ask : Directory → α) :
    v.Leads (Visiting.lookUp ask) fun a _ => a = ask v.stores.directory := by
  apply leads_askDirectory h
  intro answer directory hanswer
  obtain ⟨rfl, rfl⟩ := Prod.mk.inj (Except.ok.inj hanswer)
  exact ⟨h.accounts, fun _ => rfl⟩

/-- Who makes a request is a user with an account. -/
theorem leads_recognize (h : v.Clean) :
    v.Leads Visiting.recognize fun _ _ => True := by
  unfold Visiting.recognize
  refine (leads_get h).bind ?_
  rintro _ w hw ⟨rfl, rfl⟩
  split
  · exact leads_pure hw trivial
  · refine (leads_askSessions hw _).bind ?_
    intro owner w' hw' _
    split
    · exact leads_pure hw' trivial
    · refine (leads_lookUp hw' _).bind ?_
      rintro _ w'' hw'' rfl
      split
      · rename_i user hfound
        obtain ⟨-, account, haccount, rfl⟩ := Directory.mem_of_findById hfound
        have huser := hw'.accounts account haccount
        exact ⟨⟨hw''.vars, huser, hw''.controller, hw''.module, hw''.accounts⟩, fun _ _ => trivial⟩
      · exact ⟨⟨hw''.vars, hw''.user, hw''.controller, hw''.module, hw''.accounts⟩,
          fun _ _ => trivial⟩

theorem leads_logIn (h : v.Clean) {user : User} (huser : user.IsPlain) :
    v.Leads (Visiting.logIn user) fun _ _ => True := by
  unfold Visiting.logIn
  refine (leads_get h).bind ?_
  rintro _ w hw ⟨rfl, rfl⟩
  refine (leads_askSessions hw _).bind ?_
  intro token w' hw' _
  exact ⟨⟨hw'.vars, huser, hw'.controller, hw'.module, hw'.accounts⟩, fun _ _ => trivial⟩

theorem leads_logOut (h : v.Clean) :
    v.Leads Visiting.logOut fun _ _ => True := by
  have hguest : User.guest.IsPlain := ⟨nofun, nofun⟩
  have hlast : ∀ w : Visit, w.Clean → w.Leads (modify fun visit : Visit =>
      { visit with
        cookies := visit.cookies ++ [Visiting.tokenCookie [] 0], session := none,
        user := .guest }) fun _ _ => True := by
    intro w hw
    exact ⟨⟨hw.vars, hguest, hw.controller, hw.module, hw.accounts⟩, fun _ _ => trivial⟩
  unfold Visiting.logOut
  refine (leads_get h).bind ?_
  rintro _ w hw ⟨rfl, rfl⟩
  split
  · exact (leads_askSessions hw _).bind fun _ w' hw' _ => hlast w' hw'
  · exact hlast w hw

end Visit

/-! ## The controller of accounts -/

namespace Auth

open Visit

variable {v : Visit}

theorem leads_showForm (h : v.Clean) (template title module : Text) :
    v.Leads (showForm template title module) fun _ _ => True := by
  refine (leads_setTemplate h template).bind fun _ w hw _ => ?_
  refine (leads_setTitle hw title).bind fun _ w hw _ => ?_
  refine (leads_link hw module).bind fun address w hw _ => ?_
  exact leads_set hw (Variables.sets_of_other (by decide) (by decide) nofun)

/-- An address that was sent is shown again with its markup escaped. -/
theorem leads_sentEmail (h : v.Clean) : v.Leads sentEmail fun _ _ => True := by
  unfold sentEmail
  refine (leads_get h).bind ?_
  rintro _ w hw ⟨rfl, rfl⟩
  refine (leads_set hw ?_).bind fun _ w hw _ => leads_pure hw trivial
  exact Variables.sets_of_isPlain (by decide) (by decide) (Html.isPlain_escape _)

/-- A field whose rules can always be checked, with fixed texts as their messages. -/
def Fixed (field : Text × Form.Entry) : Prop :=
  ∀ rule ∈ field.2.rules, rule.IsSure ∧ rule.message field.1 ∈ messages

/-- The fields of both forms are such. -/
theorem fixed_fields (email password other : Text) :
    Fixed ("Email", .ofRules email [.isEmail, .required]) ∧
      Fixed ("Email", .ofRules email [.required, .isEmail]) ∧
      Fixed ("Password", .password password [.mustMatchPassword other]) := by
  have hemail : ∀ rule ∈ [Rule.isEmail, .required],
      rule.IsSure ∧ rule.message "Email" ∈ messages := by
    simp only [List.forall_mem_cons, List.not_mem_nil, false_imp_iff, implies_true, and_true]
    exact ⟨⟨trivial, by decide +kernel⟩, trivial, by decide +kernel⟩
  have hpassword : ∀ rule ∈ [Rule.containsInt, .containsUpper, .containsAlpha,
      .containsSpecialChar, .inRange 5 40], rule.IsSure ∧ rule.message "Password" ∈ messages := by
    simp only [List.forall_mem_cons, List.not_mem_nil, false_imp_iff, implies_true, and_true]
    exact ⟨⟨trivial, by decide +kernel⟩, ⟨trivial, by decide +kernel⟩,
      ⟨trivial, by decide +kernel⟩, ⟨trivial, by decide +kernel⟩, trivial, by decide +kernel⟩
  have hmatch : ("both passwords must match" : Text) ∈ messages := by decide +kernel
  refine ⟨hemail, ?_, ?_⟩
  · intro rule hrule
    have hrules : rule ∈ [Rule.required, .isEmail] := hrule
    apply hemail
    simpa [or_comm] using hrules
  · intro rule hrule
    have hrules : rule ∈ [Rule.containsInt, .containsUpper, .containsAlpha,
      .containsSpecialChar, .inRange 5 40] ++ [.mustMatchPassword other] := hrule
    rcases List.mem_append.mp hrules with hold | hlast
    · exact hpassword rule hold
    · rw [List.mem_singleton.mp hlast]
      exact ⟨trivial, hmatch⟩

/-- Fields with such rules are checked, and messages about them are fixed texts. -/
theorem leads_checkFields (h : v.Clean) {fields : List (Text × Form.Entry)}
    (hnames : (fields.map Prod.fst).Nodup) (hfields : ∀ field ∈ fields, Fixed field) :
    v.Leads (Visiting.checkFields fields) fun said _ =>
      said ⊆ messages ∧ said.isEmpty = fields.all fun field => field.2.isKept := by
  have hsure : ∀ field ∈ fields, ∀ rule ∈ field.2.rules, rule.IsSure :=
    fun field hfield rule hrule => (hfields field hfield rule hrule).1
  obtain ⟨said, hrun, hempty⟩ := Visiting.run_checkFields hnames hsure v
  constructor
  · rw [hrun]
    exact h
  · intro a ha
    refine ⟨?_, ?_⟩
    · intro message hmessage
      obtain ⟨field, hfield, rule, hrule, rfl⟩ :=
        Visiting.exists_rule_of_run_checkFields hnames ha message hmessage
      exact (hfields field hfield rule hrule).2
    · rw [hrun] at ha
      rw [← Except.ok.inj ha]
      exact hempty

/-- A user whose address and password were sent has an account. -/
theorem leads_verified (h : v.Clean) (email password : Text) :
    v.Leads (verified email password) fun found _ => ∀ user ∈ found, user.IsPlain := by
  unfold verified
  refine (leads_lookUp h _).bind ?_
  rintro _ w hw rfl
  split
  · exact leads_pure hw nofun
  · rename_i user hfound
    refine (leads_lookUp hw _).bind ?_
    intro matching w hw _
    split
    · apply leads_pure hw
      intro found hsome
      obtain ⟨account, haccount, rfl⟩ := Directory.mem_of_findByEmail hfound
      rw [← Option.some.inj hsome]
      exact h.accounts account haccount
    · exact leads_pure hw nofun

/-- An account that is made has an address for mail and the usual role. -/
theorem leads_created (h : v.Clean) {email : Text} (hemail : Rule.isEmail.keeps email = true)
    (password : Text) : v.Leads (created email password) fun _ _ => True := by
  have hrole : Html.IsPlain User.usualRole := by decide
  unfold created
  refine (leads_lookUp h _).bind ?_
  intro found w hw _
  split
  · exact leads_pure hw trivial
  · have hcreate : w.Leads (Visiting.askDirectory fun directory =>
        directory.create email password) fun _ _ => True := by
      apply leads_askDirectory hw
      intro user directory hcreated
      refine ⟨?_, fun _ => trivial⟩
      rw [Directory.eq_newAccount_of_create hcreated]
      intro account haccount
      rcases List.mem_append.mp haccount with hold | hnew
      · exact hw.accounts account hold
      · rw [List.mem_singleton.mp hnew]
        exact ⟨Rule.isPlain_of_keeps_isEmail hemail, hrole⟩
    exact hcreate.bind fun user w hw _ => leads_pure hw trivial

/-- A page that says that something was done, with a link. -/
theorem leads_success (h : v.Clean) (path title message text : Text) :
    v.Leads (do
      let address ← Visiting.link path
      some <$> Visiting.successPage title message (some (address, text))) ShowsIf :=
  (leads_link h path).bind fun _ _ hw _ => leads_some (leads_infoPage hw _ _ _ _)

theorem leads_login (h : v.Clean) : v.Leads login ShowsIf := by
  unfold login
  refine (leads_showForm h _ _ _).bind fun _ w hw _ => ?_
  refine (leads_get hw).bind ?_
  rintro _ w hw ⟨rfl, rfl⟩
  dsimp only
  split
  · refine (leads_sentEmail hw).bind fun email w hw _ => ?_
    refine (leads_checkFields hw ?_ ?_).bind ?_
    · exact List.nodup_singleton _
    · exact List.forall_mem_singleton.mpr (fixed_fields email [] []).1
    · rintro said w hw ⟨hfixed, -⟩
      split
      · refine (leads_verified hw _ _).bind fun found w hw hfound => ?_
        split
        · refine (leads_logIn hw (hfound _ rfl)).bind fun _ w hw _ => ?_
          exact leads_success hw _ _ _ _
        · exact leads_some (leads_errorDisplay hw (by decide +kernel))
      · exact leads_some (leads_errorDisplay hw hfixed)
  · exact leads_none hw

theorem leads_register (h : v.Clean) : v.Leads register ShowsIf := by
  unfold register
  refine (leads_showForm h _ _ _).bind fun _ w hw _ => ?_
  refine (leads_get hw).bind ?_
  rintro _ w hw ⟨rfl, rfl⟩
  dsimp only
  split
  · refine (leads_sentEmail hw).bind fun email w' hw' _ => ?_
    refine (leads_checkFields hw' ?_ ?_).bind ?_
    · have hnames : [("Email" : Text), "Password"].Nodup := by decide
      exact hnames
    · obtain ⟨-, hemail, hpassword⟩ := fixed_fields email (w.request.inputOr "password" "")
        (w.request.inputOr "verify_password" "")
      exact List.forall_mem_cons.mpr ⟨hemail, List.forall_mem_singleton.mpr hpassword⟩
    · rintro said w' hw' ⟨hfixed, hempty⟩
      split
      · rename_i hkept
        rw [hempty, List.all_cons, Bool.and_eq_true, (Form.Entry.isKept_ofRules email).2,
          Bool.and_eq_true] at hkept
        refine (leads_created hw' hkept.1.2 _).bind fun made w' hw' _ => ?_
        split
        · exact leads_success hw' _ _ _ _
        · exact leads_some (leads_errorDisplay hw' (by decide +kernel))
      · exact leads_some (leads_errorDisplay hw' hfixed)
  · exact leads_none hw

theorem leads_logout (h : v.Clean) : v.Leads logout ShowsIf :=
  (leads_logOut h).bind fun _ _ hw _ => leads_success hw _ _ _ _

theorem leads_before (h : v.Clean) : v.Leads before ShowsIf := by
  unfold before
  refine (leads_get h).bind ?_
  rintro _ w hw ⟨rfl, rfl⟩
  split
  · exact leads_some (leads_infoPage hw _ _ _ _)
  · split
    · exact leads_login hw
    · exact leads_none hw

theorem leads_handler (h : v.Clean) (route : Route) :
    v.Leads (controller.handler route) ShowsIf := by
  have hhandlers : ∀ handler ∈ handlers, v.Leads handler.2 ShowsIf := by
    simp only [handlers, List.forall_mem_cons, List.not_mem_nil, false_imp_iff, implies_true,
      and_true]
    exact ⟨leads_login h, leads_register h, leads_logout h⟩
  unfold Controller.handler
  cases hfound : route.module.bind fun name => controller.handlers.lookup name with
  | none => exact leads_none h
  | some handler =>
      obtain ⟨name, -, hlookup⟩ := Option.bind_eq_some_iff.mp hfound
      obtain ⟨before, after, heq, -⟩ := List.lookup_eq_some_iff.mp hlookup
      have hmem : (name, handler) ∈ controller.handlers := by
        rw [heq]
        exact List.mem_append_right _ List.mem_cons_self
      exact hhandlers _ hmem

end Auth

/-- **The controllers that every site has keep a visit clean, and their pages are those of its
template.** -/
theorem Site.leads_of_builtin {registry : Registry Controller}
    (hbuiltin : Site.builtin = .ok registry) {route : Route} {controller : Controller}
    (hcontroller : registry.controllerOf route = .ok controller) {v : Visit} (h : v.Clean) :
    v.Leads controller.serve Visit.Shows := by
  rcases eq_of_controllerOf_builtin hbuiltin hcontroller with ⟨-, rfl⟩ | ⟨-, rfl⟩
  · exact Visit.leads_serve (fun _ hv => Visit.leads_pure hv trivial)
      (fun _ hv => Auth.leads_before hv) (fun _ hv => Auth.leads_handler hv) h
  · refine Visit.leads_serve ?_ (fun _ hv => Visit.leads_none hv) ?_ h
    · intro w hw
      refine (Visit.leads_setTemplate hw _).bind fun _ w hw _ => ?_
      exact Visit.leads_set hw (Variables.sets_of_other (by decide) (by decide) nofun)
    · intro w hw route
      have hnone : Controller.index.handler route = pure none := by
        cases hmodule : route.module <;> simp [Controller.handler, Controller.index, hmodule]
      rw [hnone]
      exact Visit.leads_none hw

/-! ## Sites -/

namespace Site

variable {site : Site} {arrival : Arrival} {controller : Controller} {v : Visit}

/-- The names of the controllers that every site has, with those of their modules. -/
theorem names_of_builtin {registry : Registry Controller}
    (hbuiltin : Site.builtin = .ok registry) {name : Text} {registered : Registered Controller}
    (hfound : Table.get? name registry = some registered) :
    (name, registered.modules) ∈
      ([("auth", ["login", "logout", "register"]), ("index", [])] : List (Text × List Text)) := by
  obtain rfl : ([(("auth" : Text), ⟨["login", "logout", "register"], Auth.controller⟩),
      (("index" : Text), ⟨[], Controller.index⟩)] : Registry Controller) = registry :=
    Except.ok.inj hbuiltin
  rw [Table.get?, Table.get?, Table.get?] at hfound
  split_ifs at hfound with hauth hindex
  · rw [hauth, ← Option.some.inj hfound]
    exact List.mem_cons_self
  · rw [hindex, ← Option.some.inj hfound]
    exact List.mem_cons_of_mem _ List.mem_cons_self

/-- A route that is accepted has plain names. -/
theorem isPlain_of_accepts {registry : Registry Controller}
    (hbuiltin : Site.builtin = .ok registry) {route : Route}
    (h : registry.accepts route = true) :
    Html.IsPlain (route.controller.getD []) ∧ Html.IsPlain (route.module.getD []) := by
  have hplain : ∀ entry ∈ ([("auth", ["login", "logout", "register"]), ("index", [])] :
      List (Text × List Text)), Html.IsPlain entry.1 ∧ ∀ module ∈ entry.2, Html.IsPlain module := by
    decide
  unfold Registry.accepts at h
  split at h
  · rename_i registered hregistered
    obtain ⟨name, hname, hfound⟩ := Option.bind_eq_some_iff.mp hregistered
    obtain ⟨hcontroller, hmodules⟩ := hplain _ (names_of_builtin hbuiltin hfound)
    rw [hname]
    refine ⟨hcontroller, ?_⟩
    split at h
    · rename_i module hmodule
      rw [hmodule]
      exact hmodules module (of_decide_eq_true h)
    · rename_i hmodule
      rw [hmodule]
      exact nofun
  · contradiction

/-- A request that enters a controller does so by a route that is accepted. -/
theorem exists_route_of_entered (h : site.entered arrival = some (controller, v)) :
    ∃ route, site.registry.accepts route = true ∧
      site.registry.controllerOf (site.registry.validate route) = .ok controller ∧
      v = (Action.run Visiting.recognize
        (site.visit arrival.request (site.registry.validate route) arrival.now)).2 := by
  unfold entered at h
  split_ifs at h
  split at h
  · contradiction
  · rename_i route hroute
    dsimp only at h
    split at h
    · contradiction
    · rename_i found hcontroller
      obtain ⟨rfl, hv⟩ := Prod.mk.inj (Option.some.inj h)
      refine ⟨route, ?_, hcontroller, hv.symm⟩
      unfold Registry.controllerOf at hcontroller
      split at hcontroller
      · split_ifs at hcontroller with hvalid
        exact hvalid
      · contradiction

/-- A visit is clean when it begins, if the accounts are plain. -/
theorem clean_of_entered (hbuiltin : Site.builtin = .ok site.registry)
    (haccounts : ∀ account ∈ site.stores.directory, account.user.IsPlain)
    (h : site.entered arrival = some (controller, v)) : v.Clean := by
  obtain ⟨route, haccepts, -, rfl⟩ := exists_route_of_entered h
  obtain ⟨hcontroller, hmodule⟩ := isPlain_of_accepts hbuiltin haccepts
  have hvisit : (site.visit arrival.request (site.registry.validate route) arrival.now).Clean := by
    refine ⟨nofun, ⟨nofun, nofun⟩, hcontroller, hmodule, haccounts⟩
  exact (Visit.leads_recognize hvisit).clean

/-- A visit that enters a controller leads to the page of its template. -/
theorem leads_of_entered (hbuiltin : Site.builtin = .ok site.registry)
    (haccounts : ∀ account ∈ site.stores.directory, account.user.IsPlain)
    (h : site.entered arrival = some (controller, v)) :
    v.Leads controller.serve Visit.Shows := by
  obtain ⟨route, -, hcontroller, -⟩ := exists_route_of_entered h
  exact leads_of_builtin hbuiltin hcontroller (clean_of_entered hbuiltin haccounts h)

/-- The accounts of a site that comes about from a fresh one are plain. -/
theorem Reachable.isPlain_accounts {hours : Int} {tokenOf : Nat → Text}
    (h : Reachable hours tokenOf site) :
    ∀ account ∈ site.stores.directory, account.user.IsPlain := by
  induction h with
  | fresh hfresh =>
      rw [hfresh.directory]
      exact nofun
  | edited hsite views ih => exact ih
  | @handled site hsite arrival ih =>
      obtain ⟨hready, -⟩ := hsite.ready
      cases hentered : site.entered arrival with
      | none =>
          obtain ⟨views, hstores⟩ := handle_of_entered_none hentered
          rw [hstores]
          exact ih
      | some entered =>
          obtain ⟨controller, v⟩ := entered
          obtain ⟨views, hstores⟩ := handle_of_entered hready.reached hentered
          rw [hstores]
          exact (leads_of_entered hready.builtin ih hentered).clean.accounts

/-- **No request brings markup into a page.** On a site that has come about from a fresh one, over
any templates, whatever is requested: the variables that hold the address that was tried, the
address and the role of the user, and the names of the controller and the module are texts with
neither angle brackets nor double quotes, the variable for messages is made of fixed texts, and a
page that a controller gives is that of its template with these variables. -/
theorem markup_of_reachable {hours : Int} {tokenOf : Nat → Text}
    (h : Reachable hours tokenOf site) (hentered : site.entered arrival = some (controller, v)) :
    let w := (Action.run controller.serve v).2
    (∀ name ∈ Variables.ofRequest, ∀ value, w.template.vars.get? name = some value →
      ∃ t, value = .str t ∧ Html.IsPlain t) ∧
    (∀ value, w.template.vars.get? "ERROR_MESSAGE" = some value →
      ∃ messages, messages ⊆ Auth.messages ∧ value = .str (Text.join "<br>" messages)) ∧
    ∀ code html, (Action.run controller.serve v).1 = .ok (.page code html) →
      w.template.render w.stores.views.constants = .ok html := by
  intro w
  obtain ⟨hready, -⟩ := h.ready
  obtain ⟨hclean, hshows⟩ := leads_of_entered hready.builtin h.isPlain_accounts hentered
  have hget : ∀ name ∈ "ERROR_MESSAGE".toList :: Variables.ofRequest,
      w.template.vars.get? name = Table.get? name w.template.vars.fields := by
    have hnames : ∀ name ∈ "ERROR_MESSAGE".toList :: Variables.ofRequest, ':' ∉ name := by decide
    intro name hname
    rw [Variables.get?, Text.splitOn_of_not_mem (hnames name hname)]
    rfl
  refine ⟨?_, ?_, ?_⟩
  · intro name hname value hvalue
    rw [hget name (List.mem_cons_of_mem _ hname)] at hvalue
    exact (hclean.vars name value hvalue).plain hname
  · intro value hvalue
    rw [hget _ List.mem_cons_self] at hvalue
    exact (hclean.vars _ value hvalue).fixed rfl
  · intro code html hpage
    exact hshows _ hpage code html rfl

/-- Somebody tries to register with a tag in place of an address for mail. -/
def taggedForm : Arrival := { request := registerForm "<i class=\x22a\x22>", now := 0 }

/-- The page shows the tag escaped, and says what is wrong in fixed texts. -/
theorem markup_of_reachable_sample :
    sample.Reachable 1 sampleTokens ∧
      ∃ controller v, sample.entered taggedForm = some (controller, v) ∧
        let vars := (Action.run controller.serve v).2.template.vars
        (∃ t, vars.get? "ATTEMPTED_EMAIL" = some (.str t) ∧ Html.IsPlain t ∧
          Html.unescape t = "<i class=\x22a\x22>") ∧
        ∃ messages, vars.get? "ERROR_MESSAGE" = some (.str (Text.join "<br>" messages)) ∧
          messages ⊆ Auth.messages := by
  have hreachable : sample.Reachable 1 sampleTokens := .fresh fresh_sample
  have hemail : ((sample.answered? taggedForm).bind fun w =>
      (w.template.vars.get? "ATTEMPTED_EMAIL").map fun value => Html.unescape value.text) =
        some "<i class=\x22a\x22>" := by
    decide +kernel
  have herror : ((sample.answered? taggedForm).bind fun w =>
      w.template.vars.get? "ERROR_MESSAGE").isSome = true := by
    decide +kernel
  obtain ⟨w, hanswered, hshown⟩ := Option.bind_eq_some_iff.mp hemail
  rw [hanswered, Option.bind_some] at herror
  obtain ⟨email, hvalue, htext⟩ := Option.map_eq_some_iff.mp hshown
  obtain ⟨error, hmessage⟩ := Option.isSome_iff_exists.mp herror
  rw [answered?] at hanswered
  obtain ⟨⟨controller, v⟩, hentered, rfl⟩ := Option.map_eq_some_iff.mp hanswered
  obtain ⟨hplain, hfixed, -⟩ := markup_of_reachable hreachable hentered
  obtain ⟨t, rfl, ht⟩ := hplain _ List.mem_cons_self _ hvalue
  obtain ⟨messages, hmessages, rfl⟩ := hfixed error hmessage
  exact ⟨hreachable, controller, v, hentered, ⟨t, hvalue, ht, htext⟩, messages, hmessage,
    hmessages⟩

end Site
end PageServer
