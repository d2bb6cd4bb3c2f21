import Listing.Store.Collection

/-! A table of 32 users, with gaps, marks of deletion and odd spellings among them. -/
namespace Listing.Sample
open Listing.Store Listing.Calendar Listing.Number

def users : Model := .ofColumns "User" "<class 'models.User'>" "users" [
  ("id", .integer), ("email", .text), ("role", .text), ("is_active", .boolean), ("age", .integer),
  ("created_at", .datetime), ("deleted_at", .datetime)]

def usersFieldMap : List (String × String) :=
  [("isActive", "is_active"), ("createdAt", "created_at"), ("deletedAt", "deleted_at")]

def usersAllowlist : Allowlist where
  sortFields := ["email", "createdAt", "age"]
  filterFields := ["email", "role", "isActive", "age", "createdAt", "deletedAt"]
  defaultOrder := ⟨"createdAt", .desc⟩
  default_sortable := by decide
  restrictions_filterable := by simp

def usersPolicy : Policy := ⟨usersAllowlist, .standard⟩

structure User where
  id : Nat
  email : String
  role : String
  isActive : Bool
  age : Option Nat
  createdAt : String
  deletedAt : Option String
  deriving DecidableEq, Repr

def User.row (u : User) : Row := fun column =>
  match column with
  | "id" => .integer u.id
  | "email" => .text u.email
  | "role" => .text u.role
  | "is_active" => .integer (if u.isActive then 1 else 0)
  | "age" => (u.age.map fun n => Cell.integer n).getD .null
  | "created_at" => .text u.createdAt
  | "deleted_at" => (u.deletedAt.map Cell.text).getD .null
  | _ => .null

def emailOf (i : Nat) : String :=
  match i with
  | 3 => "User03@Example.com"
  | 11 => "user_11%@example.com"
  | 13 => String.ofList [Char.ofNat 0xFC] ++ "ser13@example.com"
  | i => "user" ++ String.ofList (fixed 2 i) ++ "@example.com"

def roleOf (i : Nat) : String :=
  if i = 9 then "Admin"
  else if 25 ≤ i then "admin"
  else
    match i % 3 with
    | 0 => "admin"
    | 1 => "manager"
    | _ => "viewer"

def createdOf (i : Nat) : String :=
  if i = 5 then "2024-01-06 12:34:56.789000"
  else if i = 31 then "2024-02-01 00:00:00.000000"
  else "2024-01-" ++ String.ofList (fixed 2 (i + 1)) ++ " 00:00:00.000000"

def userAt (i : Nat) : User where
  id := i + 1
  email := emailOf i
  role := roleOf i
  isActive := i < 25 || 30 ≤ i
  age := if i = 7 then none else some (20 + i)
  createdAt := createdOf i
  deletedAt := if 30 ≤ i then some "2024-03-01 00:00:00.000000" else none

def userTable : List User := (List.range 32).map userAt

def userRows : List Row := userTable.map User.row

def usersSchema : Schema := ⟨users.columns, .standard, usersFieldMap⟩

def allUsers : Collection := ⟨users, usersSchema, []⟩

def activeUsers : Collection :=
  ⟨users, usersSchema, [.isNull ⟨"users", "deleted_at", .datetime⟩]⟩

end Listing.Sample
