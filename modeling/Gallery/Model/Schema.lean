import Gallery.Rails.Values
import Gallery.Store.Table

/-!
# The database schema

The tables of `schema.rb` with the columns the modelled code reads or writes.
Foreign keys are plain integers: the schema declares no constraint between
tables, and its only unique indexes are those on the e-mail columns (the
reset-token columns are left out).

A column is an `Option` when rows with `NULL` in it exist; the id columns of
`comments`, `likes`, `messages`, `events` and the join tables are filled by
every path that stores a row, since the models validate their presence.
-/

namespace Gallery

open Store

/-- Keys and foreign keys, the `integer` columns. -/
abbrev Id := ℤ

/-- A `datetime` value. -/
abbrev Time := ℕ

structure User where
  email : String
  encrypted_password : String
  provider : Option String
  uid : Option String
  name : Option String
  oauth_token : Option String
  oauth_expires_at : Option Time
  last_request_at : Option Time
  created_at : Time
  updated_at : Time
deriving DecidableEq, Repr

structure Picture where
  title : String
  filename : String
  created_at : Time
  updated_at : Time
deriving DecidableEq, Repr

structure Category where
  name : String
deriving DecidableEq, Repr

structure Comment where
  user_id : Id
  picture_id : Id
  body : String
  created_at : Time
deriving DecidableEq, Repr

structure Like where
  user_id : Id
  picture_id : Id
deriving DecidableEq, Repr

structure PictureCategory where
  picture_id : Id
  category_id : Id
deriving DecidableEq, Repr

structure UserCategory where
  user_id : Id
  category_id : Id
deriving DecidableEq, Repr

structure Message where
  sender_id : Id
  receiver_id : Id
  text : String
deriving DecidableEq, Repr

structure Event where
  eventable_id : Id
  eventable_type : String
  user_id : Id
  created_at : Time
deriving DecidableEq, Repr

structure Url where
  url : String
deriving DecidableEq, Repr

/-- The database of the application. -/
@[ext]
structure Database where
  users : Table User
  pictures : Table Picture
  categories : Table Category
  comments : Table Comment
  likes : Table Like
  picture_categories : Table PictureCategory
  user_categories : Table UserCategory
  messages : Table Message
  events : Table Event
  urls : Table Url

/-- The database right after `db:schema:load`. -/
def Database.empty : Database where
  users := .empty
  pictures := .empty
  categories := .empty
  comments := .empty
  likes := .empty
  picture_categories := .empty
  user_categories := .empty
  messages := .empty
  events := .empty
  urls := .empty

end Gallery
