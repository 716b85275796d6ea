import HomeBank.Lib.Run
import HomeBank.Spec.EmailValidator
import HomeBank.Spec.Models

/-! `CustomInput` and the two pages on which a member's account is modified. A field has two
controllers: the caller's, which the page writes and its submit handler reads, and the one that
`RawAutocomplete` creates empty, which is shown, edited and validated. -/

namespace HomeBank

open Transition

structure CustomInput where
  readOnly : Bool := false
  suggestons : List String := []
  textEditingController : String
  editingController : String := ""

namespace CustomInput

inductive Event
  | type (value : String)
  | choose (selection : String)
  | rebuild
  | assign (text : String)

def onChanged (s : CustomInput) (value : String) : CustomInput :=
  { s with textEditingController := value }

def onSelected (s : CustomInput) (selection : String) : CustomInput :=
  { s with textEditingController := selection }

/-- An assignment that the page makes to its own controller. -/
def assign (s : CustomInput) (text : String) : CustomInput :=
  { s with textEditingController := text }

/-- A read-only field takes no typing. Of the suggestions any one may be chosen, so the filter
of `optionsBuilder` plays no part. -/
def step (s : CustomInput) : Event → Option CustomInput
  | .type value =>
    if s.readOnly then none else some ({ s with editingController := value }.onChanged value)
  | .choose selection =>
    if selection ∈ s.suggestons then
      some ({ s with editingController := selection }.onSelected selection)
    else none
  | .rebuild => some s
  | .assign text => some (s.assign text)

/-- What is shown and validated is what the submit handler reads. -/
def InSync (s : CustomInput) : Prop := s.editingController = s.textEditingController

/-- The field is in sync in every state of the run. -/
def InSyncThroughout (s₀ : CustomInput) (events : List Event) : Prop :=
  ∀ pre s, pre <+: events → run step s₀ pre = some s → s.InSync

/-- The event is no assignment of a text other than the one shown. -/
def AssignsShown (s : CustomInput) (e : Event) : Prop :=
  ∀ text, e = .assign text → text = s.editingController

end CustomInput

namespace MemberModifyPage

inductive Field
  | userName
  | email
  | passwordOrig
  | password
  | passwordConfirm
  deriving DecidableEq

/-- What `__FormState` of either page holds. -/
structure State where
  input : Field → CustomInput
  svgCode : Option String
  currentUser : Option UserModel

def State.setInput (s : State) (field : Field) (input : CustomInput) : State :=
  { s with input := Function.update s.input field input }

/-- The fields as they are created, over the texts of the caller's controllers. -/
def createInput (userName email : String) : Field → CustomInput
  | .userName => { textEditingController := userName }
  | .email => { readOnly := true, textEditingController := email }
  | .passwordOrig | .password | .passwordConfirm => { textEditingController := "" }

/-- What distinguishes the two pages: the state once the form is first built, what a later
`build` does, and whose birthday is submitted. -/
structure Page where
  opened : State
  build : Option UserModel → State → State
  birthday : State → String

/-- The parent's page writes the controllers in `initState` only. -/
def parentPage (user : UserModel) (currentUser : Option UserModel) : Page where
  opened := ⟨createInput user.name user.email, some user.avatarSvg, currentUser⟩
  build := fun currentUser s => { s with currentUser }
  birthday := fun _ => user.birthday.getD ""

def emailOf (user : Option UserModel) : String := (user.map UserModel.email).getD ""

def nameOf (user : Option UserModel) : String := (user.map UserModel.name).getD ""

/-- The child's page writes them in every `build`. -/
def childPage (currentUser : Option UserModel) : Page where
  opened := ⟨createInput (nameOf currentUser) (emailOf currentUser),
    currentUser.map UserModel.avatarSvg, currentUser⟩
  build := fun currentUser s =>
    let s := { s with currentUser, svgCode := s.svgCode <|> currentUser.map UserModel.avatarSvg }
    let s := s.setInput .email ((s.input .email).assign (emailOf currentUser))
    s.setInput .userName ((s.input .userName).assign (nameOf currentUser))
  birthday := fun s => (s.currentUser.bind UserModel.birthday).getD ""

inductive Event
  | edit (field : Field) (e : CustomInput.Event)
  | rebuild (currentUser : Option UserModel)

/-- The user edits a field by typing or choosing; only the page assigns. -/
def Page.step (page : Page) (s : State) : Event → Option State
  | .edit _ (.assign _) => none
  | .edit field e => ((s.input field).step e).map (s.setInput field)
  | .rebuild currentUser => some (page.build currentUser s)

/-- `length` counts UTF-16 code units, of which a character beyond the basic plane has two. -/
def length (text : String) : ℕ := (text.toList.map fun c => if c.toNat < 0x10000 then 1 else 2).sum

def userNameValidator : Option String → Option String
  | none => some "name_required"
  | some val =>
    if (Dart.trim val.toList).isEmpty then some "name_required"
    else if length val < 2 then some "valid_name"
    else none

/-- The `validator` of each field; two of them have none. -/
def validator (s : State) : Field → Option String → Option String
  | .userName => userNameValidator
  | .email => EmailValidator.validator
  | .passwordOrig | .password => fun _ => none
  | .passwordConfirm => fun val =>
    let password := (s.input .password).textEditingController
    if password ≠ "" ∧ val ≠ some password then some "密碼不匹配" else none

/-- `validate` of the form reads the texts that are shown. -/
def validate (s : State) : Bool :=
  [Field.userName, .email, .passwordOrig, .password, .passwordConfirm].all fun field =>
    (validator s field (some (s.input field).editingController)).isNone

/-- The arguments of `modifyAccount`. -/
structure ModifyArgs where
  email : String
  userName : String
  birthday : String
  svgCode : String

inductive Outcome
  | invalid
  | toast (message : String)
  | modifyAccount (args : ModifyArgs)

/-- `onTap` of the submit button reads the caller's controllers. -/
def Page.onTap (page : Page) (s : State) : Outcome :=
  let text := fun field => (s.input field).textEditingController
  if validate s then
    if text .passwordOrig ≠ "" ∧ text .password ≠ text .passwordConfirm then .toast "密碼不匹配！"
    else .modifyAccount ⟨text .email, text .userName, page.birthday s, s.svgCode.getD ""⟩
  else .invalid

/-- A name and an email that pass their validators. -/
def Acceptable (user : UserModel) : Prop :=
  userNameValidator (some user.name) = none ∧ EmailValidator.validator (some user.email) = none

/-- With nothing typed on the page, it submits the acceptable texts of `user`. -/
def PrefilledSubmits (page : Page) (user : UserModel) (rebuilds : List (Option UserModel)) : Prop :=
  Acceptable user → ∃ s args, run page.step page.opened (rebuilds.map .rebuild) = some s ∧
    page.onTap s = .modifyAccount args ∧ args.email = user.email ∧ args.userName = user.name

end MemberModifyPage

end HomeBank
