import Gallery.Controllers.Server
import Gallery.Rails.Validation

/-!
# The models as validations and columns

The nine models whose records requests store, each with the columns `schema.rb`
gives its table and the validations of its model file. Columns that Rails fills
itself are left out. The creations of `Gallery.Model.Records` fail with
PostgreSQL's error exactly when a record is valid here and yet not accepted.

## Main results

* `message_create_rejected`, `like_create_rejected`, … — the creations agree with
  the validations and columns
-/

namespace Gallery

open Store Rails App Semantics

def Message.model : Model where
  columns := [⟨"text", .string, .param⟩, ⟨"sender_id", .integer, .key⟩,
    ⟨"receiver_id", .integer, .param⟩]
  validations := [.presence "sender_id", .presence "receiver_id", .presence "text"]

def Url.model : Model where
  columns := [⟨"url", .string, .param⟩]
  validations := []

def Category.model : Model where
  columns := [⟨"name", .string, .param⟩]
  validations := [.presence "name", .presence "name"]

def Comment.model : Model where
  columns := [⟨"user_id", .integer, .key⟩, ⟨"picture_id", .integer, .key⟩, ⟨"body", .text, .param⟩]
  validations := [.presence "body", .length "body" 3 200, .presence "body", .presence "picture_id",
    .presence "user_id"]

def Picture.model : Model where
  columns := [⟨"title", .string, .param⟩, ⟨"filename", .string, .param⟩]
  validations := [.presence "filename", .presence "title", .length "title" 3 255,
    .presence "title", .presence "filename"]

def Like.model : Model where
  columns := [⟨"user_id", .integer, .key⟩, ⟨"picture_id", .integer, .param⟩]
  validations := [.uniqueness "user_id" ["picture_id"], .presence "user_id", .presence "picture_id"]

/-- `eventable` is no column but the record that type and id name. -/
def Event.model : Model where
  columns := [⟨"eventable_id", .integer, .key⟩,
    ⟨"eventable_type", .string, .class_name ["Comment", "Like", "Url", "User"]⟩,
    ⟨"user_id", .integer, .key⟩]
  validations := [.presence "eventable_type", .presence "eventable_id", .presence "user_id",
    .presence "eventable"]

def UserCategory.model : Model where
  columns := [⟨"user_id", .integer, .key⟩, ⟨"category_id", .integer, .param⟩]
  validations := [.uniqueness "user_id" ["category_id"], .presence "user_id",
    .presence "category_id"]

def PictureCategory.model : Model where
  columns := [⟨"picture_id", .integer, .key⟩, ⟨"category_id", .integer, .key⟩]
  validations := [.presence "picture_id", .presence "category_id"]

/-- A valid record that PostgreSQL refuses. -/
def Rejected (m : Model) (rows : List Attributes) (a : Attributes) : Prop :=
  m.valid rows a ∧ m.accepts a = false

/-! ### The attributes of a new record -/

def Message.attributes (sender_id : Id) (receiver_id text : Option String) : Attributes :=
  .ofList [("sender_id", .integer sender_id),
    ("receiver_id", .ofInteger (assignInteger receiver_id)), ("text", .ofText text)]

def Url.attributes (url : String) : Attributes := .ofList [("url", .text url)]

def Category.attributes (name : Option String) : Attributes := .ofList [("name", .ofText name)]

def Comment.attributes (user_id picture_id : Id) (body : Option String) : Attributes :=
  .ofList [("user_id", .integer user_id), ("picture_id", .integer picture_id),
    ("body", .ofText body)]

def Picture.attributes (title filename : Option String) : Attributes :=
  .ofList [("title", .ofText title), ("filename", .ofText filename)]

def Like.attributes (user_id picture_id : Option Id) : Attributes :=
  .ofList [("user_id", .ofInteger user_id), ("picture_id", .ofInteger picture_id)]

def UserCategory.attributes (user_id category_id : Option Id) : Attributes :=
  .ofList [("user_id", .ofInteger user_id), ("category_id", .ofInteger category_id)]

/-! ### The creations -/

section Creations

variable {w : World} {u : Id}

/-- `Message.create` fails exactly on a valid message that does not fit. -/
theorem message_create_rejected (hu : fitsInteger u) (receiver_id text : Option String) :
    (Action.exec (Message.create (some u) (assignInteger receiver_id) text) w).1 =
        .error ⟨.StatementInvalid, false⟩ ↔
      Rejected Message.model [] (Message.attributes u receiver_id text) := by
  have hvalid : Message.model.valid [] (Message.attributes u receiver_id text) =
      Message.valid (some u) (assignInteger receiver_id) text := by
    simp [Model.valid, Message.model, Message.attributes, Validation.passes, Message.valid]
  rw [Rejected, hvalid]
  cases hr : assignInteger receiver_id with
  | none => simp [Message.create, Message.valid]
  | some r =>
    cases text with
    | none => simp [Message.create, Message.valid, present?]
    | some t =>
      have haccepts : Message.model.accepts (Message.attributes u receiver_id (some t)) =
          (fitsInteger r && fitsString t) := by
        simp [Model.accepts, Message.model, Message.attributes, hr, Cell.ofInteger, Cell.ofText,
          ColumnType.accepts, hu, Bool.and_comm]
      rw [haccepts]
      simp only [Message.create, Action.exec_ite, Action.exec_bind, exec_write, exec_raise,
        Action.exec_pure]
      split_ifs <;> simp_all

/-- `Like.create` fails exactly on a valid like whose picture id does not fit. -/
theorem like_create_rejected (hu : fitsInteger u) (p : Option Id) :
    (Action.exec (Like.create (some u) p) w).1 = .error ⟨.StatementInvalid, false⟩ ↔
      Rejected Like.model (w.db.likes.rows.map fun l =>
        Like.attributes (some l.val.user_id) (some l.val.picture_id))
        (Like.attributes (some u) p) := by
  rw [exec_like_create]
  cases p with
  | none =>
    have hvalid : ∀ rows, Like.model.valid rows (Like.attributes (some u) none) = false := by
      intro rows
      simp [Model.valid, Like.model, Like.attributes, Validation.passes]
    simp [Rejected, hvalid]
  | some p =>
    have hvalid : Like.model.valid (w.db.likes.rows.map fun l =>
        Like.attributes (some l.val.user_id) (some l.val.picture_id))
        (Like.attributes (some u) (some p)) =
          !w.db.likes.rows.any fun l => l.val.user_id = u && l.val.picture_id = p := by
      simp [Model.valid, Like.model, Like.attributes, Validation.passes, Cell.ofInteger,
        Function.comp_def]
    have haccepts : Like.model.accepts (Like.attributes (some u) (some p)) = fitsInteger p := by
      simp [Model.accepts, Like.model, Like.attributes, Cell.ofInteger, ColumnType.accepts, hu]
    rw [Rejected, hvalid, haccepts]
    dsimp only
    split_ifs <;> simp_all

/-- `UserCategory.create` fails exactly on a valid subscription whose category id
does not fit. -/
theorem userCategory_create_rejected (hu : fitsInteger u) (c : Option Id) :
    (Action.exec (UserCategory.create (some u) c) w).1 = .error ⟨.StatementInvalid, false⟩ ↔
      Rejected UserCategory.model (w.db.user_categories.rows.map fun s =>
        UserCategory.attributes (some s.val.user_id) (some s.val.category_id))
        (UserCategory.attributes (some u) c) := by
  rw [exec_userCategory_create]
  cases c with
  | none =>
    have hvalid : ∀ rows,
        UserCategory.model.valid rows (UserCategory.attributes (some u) none) = false := by
      intro rows
      simp [Model.valid, UserCategory.model, UserCategory.attributes, Validation.passes]
    simp [Rejected, hvalid]
  | some c =>
    have hvalid : UserCategory.model.valid (w.db.user_categories.rows.map fun s =>
        UserCategory.attributes (some s.val.user_id) (some s.val.category_id))
        (UserCategory.attributes (some u) (some c)) =
          !w.db.user_categories.rows.any fun s => s.val.user_id = u && s.val.category_id = c := by
      simp [Model.valid, UserCategory.model, UserCategory.attributes, Validation.passes,
        Cell.ofInteger, Function.comp_def]
    have haccepts : UserCategory.model.accepts (UserCategory.attributes (some u) (some c)) =
        fitsInteger c := by
      simp [Model.accepts, UserCategory.model, UserCategory.attributes, Cell.ofInteger,
        ColumnType.accepts, hu]
    rw [Rejected, hvalid, haccepts]
    dsimp only
    split_ifs <;> simp_all

/-- `Category.create` fails exactly on a valid name that does not fit. -/
theorem category_create_rejected (name : Option String) :
    (Action.exec (Category.create name) w).1 = .error ⟨.StatementInvalid, false⟩ ↔
      Rejected Category.model [] (Category.attributes name) := by
  cases name with
  | none =>
    simp [Category.create, Rejected, Model.valid, Category.model, Category.attributes,
      Validation.passes, present?]
  | some n =>
    have hvalid : Category.model.valid [] (Category.attributes (some n)) = !blank? n := by
      simp [Model.valid, Category.model, Category.attributes, Validation.passes, present?]
    have haccepts : Category.model.accepts (Category.attributes (some n)) = fitsString n := by
      simp [Model.accepts, Category.model, Category.attributes, Cell.ofText, ColumnType.accepts]
    rw [Rejected, hvalid, haccepts]
    simp only [Category.create, Action.exec_bind, exec_database, Action.exec_ite, exec_write,
      exec_raise, Action.exec_pure]
    split_ifs <;> simp_all

/-- `Picture.create` fails exactly on a valid picture whose filename does not fit. -/
theorem picture_create_rejected (title filename : Option String) (ids : List Id) (now : Time) :
    (Action.exec (Picture.create title filename ids now) w).1 =
        .error ⟨.StatementInvalid, false⟩ ↔
      Rejected Picture.model [] (Picture.attributes title filename) := by
  have hvalid : Picture.model.valid [] (Picture.attributes title filename) =
      Picture.valid title filename := by
    cases title <;> cases filename <;>
      simp [Model.valid, Picture.model, Picture.attributes, Validation.passes, Picture.valid,
        Cell.ofText, Cell.length, Cell.blank?, present?, Bool.and_comm, Bool.and_left_comm,
        Bool.and_assoc]
  rw [Rejected, hvalid, exec_picture_create]
  cases title with
  | none => simp [Picture.valid, present?]
  | some t =>
    cases filename with
    | none => simp [Picture.valid, present?]
    | some f =>
      by_cases h : Picture.valid (some t) (some f)
      · have ht : fitsString t := by
          simp only [Picture.valid, Option.any_some, Bool.and_eq_true, decide_eq_true_eq] at h
          exact decide_eq_true h.1.2.2
        have haccepts : Picture.model.accepts (Picture.attributes (some t) (some f)) =
            fitsString f := by
          simp [Model.accepts, Picture.model, Picture.attributes, Cell.ofText, ColumnType.accepts,
            ht]
        rw [haccepts]
        simp only [h, ite_true]
        split_ifs <;> simp_all
      · simp [h]

/-- `Url.find_or_create_by_url` fails exactly on a new URL that does not fit. -/
theorem url_create_rejected (url : String) :
    (Action.exec (Url.find_or_create_by_url url) w).1 = .error ⟨.StatementInvalid, false⟩ ↔
      w.db.url? url = none ∧ Rejected Url.model [] (Url.attributes url) := by
  have haccepts : Url.model.accepts (Url.attributes url) = fitsString url := by
    simp [Model.accepts, Url.model, Url.attributes, ColumnType.accepts]
  rw [Rejected, haccepts, exec_find_or_create]
  rcases Option.eq_none_or_eq_some (w.db.url? url) with hurl | ⟨r, hurl⟩
  · by_cases hfits : fitsString url <;> simp [hurl, hfits, Model.valid, Url.model]
  · simp [hurl]

/-- `Comment.create` stores every valid comment, and PostgreSQL accepts them all. -/
theorem comment_create_stored (u p : Id) (body : Option String) (now : Time) :
    (∃ c, (Action.exec (Comment.create u p body now) w).1 = .ok (some c)) ↔
      Comment.model.valid [] (Comment.attributes u p body) := by
  have hvalid : Comment.model.valid [] (Comment.attributes u p body) = Comment.validBody body := by
    cases body <;>
      simp [Model.valid, Comment.model, Comment.attributes, Validation.passes, Comment.validBody,
        Cell.ofText, Cell.length, Cell.blank?, present?, Bool.and_comm, Bool.and_left_comm]
  rw [hvalid]
  cases body with
  | none => simp [Comment.create, Comment.validBody, present?]
  | some b => by_cases hb : Comment.validBody (some b) <;> simp [Comment.create, hb]

end Creations

end Gallery
