import Gallery.Controllers.Server
import Gallery.Semantics.Exchange
import Mathlib.Logic.Function.Basic

/-!
# The icons of the menu and the like button

What the browser keeps of a user's subscriptions and likes. The icons of the menu come
unsubscribed from the server, and the page asks at once for the subscriptions of the
user; a click on an icon, or on the like button, is a request whose reply says what the
picture becomes. A click that fails takes the user to the sign-in form.

## Main definitions

* `Icons`, `MenuReply.show` — the icons, and what `pictures.js.coffee` makes of a reply
* `menu` — the menu of a page of a user, next to the server
* `LikeButton`, `likeButton` — the like button of the page of a picture
-/

namespace Gallery

open Store Rails App Semantics

/-! ### The icons of the menu -/

/-- The icons of the menu by the category they are named after: whether `src` is
`subscribed.png`. -/
abbrev Icons := Id → Option Bool

/-- A request of the menu, and the time at which the server gets to it. -/
inductive MenuRequest
  | check_subscribe (now : Time)
  /-- A click on an icon. -/
  | subscribe (name : Id) (now : Time)
deriving DecidableEq, Repr

inductive MenuReply
  /-- The subscriptions of the user. -/
  | subscriptions (user_categories : List UserCategory)
  /-- `{res: 1}` or `{}`, for the icon clicked. -/
  | subscribe (name : Id) (res : Option ℕ)
  | check_subscribe_failed
  | subscribe_failed
deriving DecidableEq, Repr

/-- `CategoriesController#check_subscribe` -/
def CategoriesController.check_subscribe (db : Database) (u : Id) : List UserCategory :=
  (db.user_categories.rows.filter fun s => s.val.user_id = u).map Row.val

/-- The handlers of the replies. The page has been left when there are no icons; a click
is the only request whose failure is handled. -/
def MenuReply.show (icons : Option Icons) : MenuReply → Option Icons
  | subscriptions user_categories => icons.map fun icons c =>
    (icons c).map fun src => src || user_categories.any fun s => s.category_id = c
  | subscribe name res => icons.map fun icons =>
    Function.update icons name ((icons name).map fun _ => decide (res = some 1))
  | check_subscribe_failed => icons
  | subscribe_failed => none

/-- The request as the server sees it. -/
def MenuRequest.request (u : Id) (origin : String) : MenuRequest → Request
  | check_subscribe now =>
    ⟨some u, origin ++ "/categories/check_subscribe", now, .categories_check_subscribe⟩
  | subscribe name now =>
    ⟨some u, origin ++ "/categories/subscribe", now, .categories_subscribe (some (toString name))⟩

/-- The reply to a request that was answered with a response or an error. -/
def MenuRequest.reply (u : Id) (db : Database) :
    MenuRequest → Except Raised Response → MenuReply
  | check_subscribe _, .ok _ => .subscriptions (CategoriesController.check_subscribe db u)
  | check_subscribe _, .error _ => .check_subscribe_failed
  | subscribe name _, .ok (.subscribe res) => .subscribe name res
  | subscribe _ _, _ => .subscribe_failed

/-- The menu of a page of user `u`. Elsewhere the server handles other requests. -/
def Menu.service (u : Id) (origin : String) :
    Service World (Option Icons) MenuRequest MenuReply Request where
  handle w q :=
    let run := Action.exec (q.request u origin).run w
    (run.2, q.reply u run.2.db run.1)
  apply := MenuReply.show
  sends icons
    | .check_subscribe _ => false
    | .subscribe name _ => icons.any fun icons => (icons name).isSome
  elsewhere w r := (Action.exec r.run w).2

/-- The page has loaded with every icon unsubscribed, and asks for the subscriptions. -/
def menu (u : Id) (origin : String) :
    System (Exchange World (Option Icons) MenuRequest MenuReply)
      (ExchangeStep MenuRequest Request) :=
  exchange (Menu.service u origin) fun s =>
    s.server.db.users.Has u ∧ (∃ icons : Icons, s.view = some icons ∧ ∀ c, icons c ≠ some true) ∧
      (∃ now, s.sent = [.check_subscribe now]) ∧ s.replies = [] ∧ s.handled = []

/-! ### The like button -/

/-- The opacity that a script has set, if one has, and the number next to the button. -/
structure LikeButton where
  opacity : Option ℚ
  all_likes : ℕ
deriving DecidableEq, Repr

/-- The handlers of the reply to a click; a click that fails leaves the page. -/
def LikeButton.show (button : Option LikeButton) : Except Raised Response → Option LikeButton
  | .ok (.like like all_likes) => button.map fun _ => ⟨some like, all_likes⟩
  | _ => none

/-- A click on the like button, as the server sees it at a time. -/
def LikeButton.click (u : Id) (origin : String) (picture : Id) (now : Time) : Request :=
  ⟨some u, origin ++ "/pictures/like", now, .pictures_like (some (toString picture)) none⟩

/-- The page of a picture, opened by user `u`. A request is the time at which the server
gets to it. -/
def LikeButton.service (u : Id) (origin : String) (picture : Id) :
    Service World (Option LikeButton) Time (Except Raised Response) Request where
  handle w now := (Action.exec (click u origin picture now).run w).swap
  apply := LikeButton.show
  sends button _ := button.isSome
  elsewhere w r := (Action.exec r.run w).2

/-- The page has loaded, and no script has touched the button. -/
def likeButton (u : Id) (origin : String) (picture : Id) :
    System (Exchange World (Option LikeButton) Time (Except Raised Response))
      (ExchangeStep Time Request) :=
  exchange (LikeButton.service u origin picture) fun s =>
    (∃ n, s.view = some ⟨none, n⟩) ∧ s.sent = [] ∧ s.replies = [] ∧ s.handled = []

end Gallery
