import HomeBank.Lib.Run
import HomeBank.Spec.Models

/-! The app session: `AuthProvider` and the page on top, with the handlers that enter the
home page and the two confirmed sign-outs that leave it. -/

namespace HomeBank.Session

structure AuthProvider where
  user : UserModel := {}
  deriving DecidableEq

namespace AuthProvider

/-! The bodies of these methods are commented out in the source. -/

def loginUser (auth : AuthProvider) (_email _password : String) : AuthProvider := auth

def signUpWithEmail (auth : AuthProvider) (_userName _email _password : String) : AuthProvider :=
  auth

def listenToChildren (auth : AuthProvider) (_parentId : String) : AuthProvider := auth

def listenChildrenPoints (auth : AuthProvider) (_parentId : String) : AuthProvider := auth

def listenChildrenJobs (auth : AuthProvider) (_parentId : String) : AuthProvider := auth

def listenToPoints (auth : AuthProvider) (_email : String) : AuthProvider := auth

def listenToJobs (auth : AuthProvider) (_email : String) : AuthProvider := auth

/-- What both entry handlers do before they show the home page. -/
def listen (auth : AuthProvider) (email : String) : AuthProvider :=
  if auth.user.isParent then
    ((auth.listenToChildren email).listenChildrenJobs email).listenChildrenPoints email
  else (auth.listenToJobs email).listenToPoints email

theorem listen_eq (auth : AuthProvider) (email : String) : auth.listen email = auth := by
  unfold listen
  split <;> rfl

end AuthProvider

inductive Page where
  | loginEmail
  | home
  deriving DecidableEq

structure State where
  auth : AuthProvider
  page : Page
  deriving DecidableEq

/-- The splash screen leads to the login page. -/
def State.init : State := ⟨{}, .loginEmail⟩

inductive Event where
  | guestEntry
  /-- a login whose form is accepted and whose email can be saved; others change nothing -/
  | login (email password : String)
  | registration (userName email password : String)
  | parentSignOut
  /-- `FirebaseAuth.instance.signOut()` returns or throws -/
  | childSignOut (returns : Bool)
  deriving DecidableEq

def guest : UserModel :=
  { name := "訪客", email := "guest@example.com", parent := some "parent_email" }

/-- Entries are possible on every page, since the back button can uncover a login page; a
sign-out is confirmed on the home page of its own kind. -/
def step (s : State) : Event → Option State
  | .guestEntry => some ⟨{ s.auth with user := guest }, .home⟩
  | .login email password => some ⟨(s.auth.loginUser email password).listen email, .home⟩
  | .registration userName email password =>
    some ⟨(s.auth.signUpWithEmail userName email password).listen email, .home⟩
  | .parentSignOut =>
    if s.page = .home ∧ s.auth.user.isParent = true then some { s with page := .loginEmail }
    else none
  | .childSignOut returns =>
    if s.page = .home ∧ s.auth.user.isParent = false then
      some (if returns then { s with page := .loginEmail } else s)
    else none

def Event.isSignOut : Event → Bool
  | .parentSignOut | .childSignOut _ => true
  | _ => false

def Event.isEntry : Event → Bool
  | .guestEntry | .login _ _ | .registration _ _ _ => true
  | _ => false

inductive HomeView where
  | parent
  | child
  deriving DecidableEq

/-- `HomePage.build`: which home page is shown, if one is. -/
def State.shown (s : State) : Option HomeView :=
  if s.page = .home then some (if s.auth.user.isParent then .parent else .child) else none

end HomeBank.Session
