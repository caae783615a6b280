import EntityQuery.Result.RowType
import EntityQuery.Schema

/-!
# A sample

A small schema with records to try queries on: users with their todos and addresses, items that have
a field of every type, and nodes that form a tree. Some references lead nowhere.
-/

namespace EntityQuery.Sample

/-! ## The schema -/

def user : Entity where
  name := "User"
  identityField := "id"
  fields := [
    .new "id" (.scalar .int64), .new "email" (.scalar .string),
    .new "login" (.optionalScalar .string), .new "roles" (.array .string),
    .new "address_id" (.optionalScalar .int64), .new "current_todo_id" (.optionalScalar .int64)]

def todo : Entity where
  name := "Todo"
  identityField := "id"
  fields := [
    .new "id" (.scalar .int64), .new "name" (.scalar .string), .new "importance" (.scalar .int32),
    .new "user_id" (.optionalScalar .int64)]

def address : Entity where
  name := "Address"
  identityField := "id"
  fields := [
    .new "id" (.scalar .int64), .new "city" (.scalar .string), .new "country" (.scalar .string)]

def item : Entity where
  name := "Item"
  identityField := "id"
  fields := [
    .new "id" (.scalar .int64), .new "flag" (.scalar .bool), .new "small" (.scalar .int32),
    .new "big" (.scalar .int64), .new "single" (.scalar .float32), .new "dbl" (.scalar .float64),
    .new "text" (.scalar .string), .new "raw" (.scalar .bytes), .new "at" (.scalar .timestamp),
    .new "uid" (.scalar .uuid), .new "kind" (.enumeration "Kind" ["A", "B", "C"]),
    .new "opt_kind" (.optionalEnumeration "Kind" ["A", "B", "C"]),
    .new "other" (.enumeration "Other" ["A", "X"]), .new "tags" (.array .string),
    .new "nums" (.array .int32), .new "longs" (.array .int64), .new "reals" (.array .float64),
    .new "flags" (.array .bool), .new "uids" (.array .uuid), .new "singles" (.array .float32),
    .new "user_id" (.optionalScalar .int64), .new "opt_small" (.optionalScalar .int32),
    .new "opt_text" (.optionalScalar .string), .new "opt_dbl" (.optionalScalar .float64),
    .new "opt_at" (.optionalScalar .timestamp), .new "opt_flag" (.optionalScalar .bool)]

def node : Entity where
  name := "Node"
  identityField := "key"
  fields := [
    .new "key" (.scalar .string), .new "parent_key" (.optionalScalar .string),
    .new "rank" (.scalar .int32), .new "label" (.optionalScalar .string)]

def schema : Schema where
  version := 1
  entities := [("User", user), ("Todo", todo), ("Address", address), ("Item", item), ("Node", node)]
  relations := [
    ⟨"address", "User", "address_id", "Address", "id", .manyToOne⟩,
    ⟨"current_todo", "User", "current_todo_id", "Todo", "id", .manyToOne⟩,
    ⟨"todos", "User", "id", "Todo", "user_id", .oneToMany⟩,
    ⟨"items", "User", "id", "Item", "user_id", .oneToMany⟩,
    ⟨"profile", "User", "id", "Item", "user_id", .oneToOne⟩,
    ⟨"owner", "Todo", "user_id", "User", "id", .manyToOne⟩,
    ⟨"owner", "Item", "user_id", "User", "id", .oneToOne⟩,
    ⟨"residents", "Address", "id", "User", "address_id", .oneToMany⟩,
    ⟨"parent", "Node", "parent_key", "Node", "key", .manyToOne⟩,
    ⟨"children", "Node", "key", "Node", "parent_key", .oneToMany⟩]

/-! ## Fields to read records into -/

def userFields : List (String × ValueType) := [
  ("id", .base .int64), ("email", .base .string), ("login", .optional (.base .string)),
  ("roles", .optional (.base .stringArray)), ("address_id", .optional (.base .int64)),
  ("current_todo_id", .optional (.base .int64))]

def todoFields : List (String × ValueType) := [
  ("id", .base .int64), ("name", .base .string), ("importance", .base .int32),
  ("user_id", .optional (.base .int64))]

def addressFields : List (String × ValueType) := [
  ("id", .base .int64), ("city", .base .string), ("country", .base .string)]

def itemFields : List (String × ValueType) := [
  ("id", .base .int64), ("flag", .base .bool), ("small", .base .int32), ("big", .base .int64),
  ("single", .base .float32), ("dbl", .base .float64), ("text", .base .string),
  ("raw", .base .bytes), ("uid", .base .uuid), ("kind", .base .string),
  ("opt_kind", .optional (.base .string)), ("tags", .base .stringArray),
  ("nums", .base .int32Array), ("longs", .base .int64Array), ("reals", .base .float64Array),
  ("flags", .base .boolArray), ("at", .any), ("opt_small", .optional (.base .int32))]

/-! ## The records -/

def float64 (bits : UInt64) : Float :=
  Float.ofBits bits

/-- The identifier with a given last byte and zeros before it. -/
def uuid (last : UInt8) : Uuid :=
  (Vector.replicate 15 0).push last

/-- Records of an entity from the names of their fields and rows of values. -/
def rows (entity : String) (names : List String) (values : List (List Value)) : List Record :=
  values.map fun vs => ⟨entity, names.zip vs⟩

def userRecords : List Record :=
  rows "User" ["id", "email", "login", "roles", "address_id", "current_todo_id"] [
    [.int64 1, .string "email1", .string "ccc", .stringArray ["ADMIN"], .int64 1, .int64 1],
    [.int64 2, .string "email2", .string "aaa", .stringArray ["USER"], .int64 2, .null],
    [.int64 3, .string "email3", .null, .stringArray [], .null, .int64 4],
    [.int64 4, .string "Émile_4%", .string "aaa", .stringArray ["USER", "ADMIN", "USER"],
      .int64 1, .int64 3],
    [.int64 5, .string "email5", .string "", .stringArray ["GUEST"], .int64 99, .null]]

def todoRecords : List Record :=
  rows "Todo" ["id", "name", "importance", "user_id"] [
    [.int64 1, .string "task1", .int32 5, .int64 1],
    [.int64 2, .string "task2", .int32 15, .int64 1],
    [.int64 3, .string "task3", .int32 20, .int64 2],
    [.int64 4, .string "task4", .int32 1, .int64 3],
    [.int64 5, .string "orphan", .int32 15, .null],
    [.int64 6, .string "lost", .int32 (-7), .int64 42]]

def addressRecords : List Record :=
  rows "Address" ["id", "city", "country"] [
    [.int64 1, .string "Berlin", .string "DE"],
    [.int64 2, .string "Paris", .string "FR"],
    [.int64 3, .string "Zürich", .string "CH"]]

def itemRecords : List Record :=
  rows "Item" [
    "id", "flag", "small", "big", "single", "dbl", "text", "raw", "at", "uid", "kind", "opt_kind",
    "other", "tags", "nums", "longs", "reals", "flags", "uids", "user_id", "opt_small", "opt_text",
    "opt_dbl", "opt_at", "opt_flag"] [
    [
      .int64 1, .bool true, .int32 1, .int64 10, .float32 (Float32.ofBits 0x3fc00000),
      .float64 (float64 0x4004000000000000), .string "alpha", .bytes [1, 2], .timestamp 1000,
      .uuid (uuid 1), .string "A", .string "A", .string "A", .stringArray ["x", "y"],
      .int32Array [1, 2], .int64Array [10, 20], .float64Array [(float64 0x3ff8000000000000)],
      .boolArray [true], .uuidArray [(uuid 1)], .int64 1, .int32 7, .string "opt",
      .float64 (float64 0x3fb999999999999a), .timestamp 500, .bool true],
    [
      .int64 2, .bool false, .int32 (-5), .int64 9007199254740993,
      .float32 (Float32.ofBits 0xbe800000), .float64 (float64 0xfe37e43c8800759c), .string "",
      .bytes [], .timestamp (-1), .uuid (uuid 2), .string "B", .null, .string "X", .stringArray [],
      .int32Array [], .int64Array [], .float64Array [], .boolArray [], .uuidArray [], .int64 2,
      .null, .null, .null, .null, .null],
    [
      .int64 3, .bool true, .int32 2147483647, .int64 (-9223372036854775808),
      .float32 (Float32.ofBits 0x4b800000), .float64 (float64 0x3fb999999999999a), .string "Alpha",
      .bytes [255], .timestamp 0, .uuid (uuid 3), .string "C", .string "B", .string "A",
      .stringArray ["x"], .int32Array [2147483647], .int64Array [9223372036854775807],
      .float64Array [(float64 0x3fb999999999999a), (float64 0x8000000000000000)],
      .boolArray [false, true], .uuidArray [(uuid 2), (uuid 3)], .int64 4, .int32 (-7), .string "",
      .float64 (float64 0x8000000000000000), .timestamp 0, .bool false],
    [
      .int64 4, .bool false, .int32 (-2147483648), .int64 0, .float32 (Float32.ofBits 0x3dcccccd),
      .float64 (float64 0x4008000000000000), .string "日本語😀", .bytes [0, 0],
      .timestamp 9007199254740993, .uuid (uuid 0), .string "A", .string "C", .string "A",
      .stringArray ["😀"], .int32Array [0], .int64Array [0],
      .float64Array [(float64 0x4008000000000000)], .boolArray [false], .uuidArray [(uuid 0)],
      .null, .int32 0, .string "日本", .float64 (float64 0x4341c37937e08000), .timestamp (-5),
      .bool false],
    [
      .int64 5, .bool true, .int32 1, .int64 10, .float32 (Float32.ofBits 0x3fc00000),
      .float64 (float64 0x4004000000000000), .string "alpha", .bytes [1], .timestamp 1000,
      .uuid (uuid 1), .string "A", .string "A", .string "X", .stringArray ["y", "x"],
      .int32Array [2, 1], .int64Array [20, 10], .float64Array [(float64 0x3ff8000000000000)],
      .boolArray [true], .uuidArray [(uuid 1)], .int64 77, .int32 7, .string "opt",
      .float64 (float64 0x3fb999999999999a), .timestamp 500, .bool true]]

def nodeRecords : List Record :=
  rows "Node" ["key", "parent_key", "rank", "label"] [
    [.string "root", .null, .int32 0, .string "r"],
    [.string "a", .string "root", .int32 1, .null],
    [.string "b", .string "root", .int32 1, .string "bee"],
    [.string "c", .string "a", .int32 2, .string "sea"],
    [.string "d", .string "c", .int32 3, .null],
    [.string "loop", .string "loop", .int32 9, .string "self"],
    [.string "dangling", .string "nowhere", .int32 5, .null]]

def records : List Record :=
  userRecords ++ todoRecords ++ addressRecords ++ itemRecords ++ nodeRecords

end EntityQuery.Sample
