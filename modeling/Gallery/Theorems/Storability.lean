import Gallery.Model.Validations

/-!
# Valid records that PostgreSQL refuses

Validations keep the title of a picture and the body of a comment within their
columns. Seven other columns take a request parameter that nothing limits: a
valid record with a long text or a large id there is refused by PostgreSQL, and
one of them is written by the filter in front of nearly every action.

## Main results

* `storability` — which valid records are stored, and which URLs are tracked
-/

namespace Gallery

open Store Rails App Semantics

/-- The models whose records requests store. -/
inductive ModelName
  | message
  | url
  | category
  | comment
  | picture
  | like
  | event
  | user_category
  | picture_category
deriving DecidableEq, Repr

namespace ModelName

def model : ModelName → Model
  | message => Message.model
  | url => Url.model
  | category => Category.model
  | comment => Comment.model
  | picture => Picture.model
  | like => Like.model
  | event => Event.model
  | user_category => UserCategory.model
  | picture_category => PictureCategory.model

/-- The columns that take a parameter of any length or size. -/
def unlimited : ModelName → List String
  | message => ["text", "receiver_id"]
  | url => ["url"]
  | category => ["name"]
  | picture => ["filename"]
  | like => ["picture_id"]
  | user_category => ["category_id"]
  | comment | event | picture_category => []

theorem mem_unbounded_iff (m : ModelName) (c : Column) :
    c ∈ m.model.unbounded ↔ c ∈ m.model.columns ∧ c.name ∈ m.unlimited := by
  have hall : ∀ c ∈ m.model.columns, (!m.model.bounded c) = decide (c.name ∈ m.unlimited) := by
    cases m <;> decide
  rw [Model.unbounded, List.mem_filter]
  refine and_congr_right fun hc => ?_
  rw [hall c hc, decide_eq_true_iff]

end ModelName

/-- A tracked request of a signed-in user passes the filter exactly if its URL is
known or fits, and otherwise fails as a whole. -/
theorem tracking_fits {r : Request} {w : World} {u : Row User} (hu : r.user w.db = some u)
    (htracked : r.route.tracked) :
    ((Action.exec (track_request r (some u)) w).1 = .ok () ↔
      (w.db.url? r.url).isSome ∨ r.url.length ≤ 255) ∧
    ((Action.exec (track_request r (some u)) w).1 ≠ .ok () →
      Action.exec r.run w = (.error ⟨.StatementInvalid, true⟩, w)) := by
  have hcan : w.db.canTrack r.url ↔ (w.db.url? r.url).isSome ∨ r.url.length ≤ 255 := by
    simp [Database.canTrack, fitsString]
  rw [exec_track_request, exec_run, ← hcan]
  simp only [Request.trackable, htracked, hu]
  by_cases h : w.db.canTrack r.url <;> simp [h]

/-- A valid record is stored exactly if its unlimited columns fit, and a tracked
request passes the filter exactly if its URL is known or fits. -/
theorem storability (m : ModelName) (rows : List Attributes) (a : Attributes) (r : Request)
    (w : World) :
    (m.model.Supplied a →
      ((m.model.valid rows a → m.model.accepts a) ↔
        (m.model.valid rows a →
          ∀ c ∈ m.model.columns, c.name ∈ m.unlimited → c.type.accepts (a c.name)))) ∧
    ∀ u : Row User, r.user w.db = some u → r.route.tracked →
      ((Action.exec (track_request r (some u)) w).1 = .ok () ↔
        (w.db.url? r.url).isSome ∨ r.url.length ≤ 255) ∧
      ((Action.exec (track_request r (some u)) w).1 ≠ .ok () →
        Action.exec r.run w = (.error ⟨.StatementInvalid, true⟩, w)) := by
  refine ⟨fun hsupplied => forall_congr' fun hvalid => ?_,
    fun u hu htracked => tracking_fits hu htracked⟩
  rw [Model.accepts_iff hsupplied hvalid]
  exact ⟨fun h c hc hname => h c ((m.mem_unbounded_iff c).mpr ⟨hc, hname⟩),
    fun h c hc => h c ((m.mem_unbounded_iff c).mp hc).1 ((m.mem_unbounded_iff c).mp hc).2⟩

/-! ### Concrete records -/

/-- What `messages/send` supplies. -/
theorem message_supplied {u : Id} (hu : fitsInteger u) (receiver_id text : Option String) :
    Message.model.Supplied (Message.attributes u receiver_id text) := by
  intro c hc
  simp only [Message.model, List.mem_cons, List.not_mem_nil, or_false] at hc
  rcases hc with rfl | rfl | rfl
  · exact ⟨text, by simp [Message.attributes]⟩
  · exact .inr ⟨u, hu, by simp [Message.attributes]⟩
  · exact ⟨receiver_id, by simp [Message.attributes]⟩

/-- A greeting is stored, and so is the URL it was sent to. -/
theorem storability_hi :
    (Message.model.valid [] (Message.attributes 1 (some "2") (some "hi")) →
      Message.model.accepts (Message.attributes 1 (some "2") (some "hi"))) ∧
    (Action.exec (track_request (.by 1 .pictures_view) (some ⟨1, .named "ada@example.com"⟩))
      (.ofDatabase .sample)).1 = .ok () := by
  have h := storability .message [] (Message.attributes 1 (some "2") (some "hi"))
    (.by 1 .pictures_view) (.ofDatabase .sample)
  constructor
  · exact (h.1 (message_supplied (by decide) _ _)).mpr fun _ => by decide
  · exact (h.2 ⟨1, .named "ada@example.com"⟩ (by decide) rfl).1.mpr (.inr (by decide))

/-- A text of `n` letters. -/
def letters (n : ℕ) : String := String.ofList (List.replicate n 'a')

theorem length_letters (n : ℕ) : (letters n).length = n := by
  rw [letters, String.length_ofList, List.length_replicate]

theorem present_letters {n : ℕ} (hn : n ≠ 0) : present? (some (letters n)) := by
  simp [present?, blank?, letters, hn, show isSpace 'a' = false by decide]

/-- A valid message whose text is too long for its column. -/
theorem long_message_rejected :
    ∃ (m : ModelName) (rows : List Attributes) (a : Attributes), m.model.Supplied a ∧
      ¬ (m.model.valid rows a → m.model.accepts a) := by
  refine ⟨.message, [], Message.attributes 1 (some "2") (some (letters 256)),
    message_supplied (by decide) _ _, fun h => ?_⟩
  have hvalid : Message.model.valid [] (Message.attributes 1 (some "2") (some (letters 256))) := by
    simp [Model.valid, Message.model, Message.attributes, Validation.passes, present_letters,
      show (assignInteger (some "2")).isSome by decide]
  have htext := List.all_eq_true.mp (h hvalid) ⟨"text", .string, .param⟩ (by simp [ModelName.model,
    Message.model])
  simp [Message.attributes, Cell.ofText, ColumnType.accepts, fitsString, length_letters] at htext

end Gallery
