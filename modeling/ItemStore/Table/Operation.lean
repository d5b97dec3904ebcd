import ItemStore.Transport.Basic

/-! The operations of a table.

An operation carries what the caller passed, whatever that is. Each makes at most one call, by its
own method; both kinds of full write use the method that puts an item. -/
namespace ItemStore

inductive Operation where
  | get (key params : Value)
  | query (params : Value)
  | scan (params : Value)
  | create (item id params : Value)
  | replace (key item params : Value)
  | update (key attributes params : Value)
  | delete (key params : Value)
  | batchWrite (requests account : Value)
  | listTables (params : Value)
  | createTable (params : Value)
  | deleteTable (params : Value)
deriving DecidableEq, Repr, Inhabited

namespace Operation

def method : Operation → Method
  | .get .. => .getItem
  | .query .. => .query
  | .scan .. => .scan
  | .create .. => .putItem
  | .replace .. => .putItem
  | .update .. => .updateItem
  | .delete .. => .deleteItem
  | .batchWrite .. => .batchWriteItem
  | .listTables .. => .listTables
  | .createTable .. => .createTable
  | .deleteTable .. => .deleteTable

/-- The name of the operation in the log. -/
def action : Operation → String
  | .get .. => "DB_ACTION::get"
  | .query .. => "DB_ACTION::query"
  | .scan .. => "DB_ACTION::scan"
  | .create .. => "DB_ACTION::create"
  | .replace .. => "DB_ACTION::update"
  | .update .. => "DB_ACTION::updateAttributes"
  | .delete .. => "DB_ACTION::delete"
  | .batchWrite .. => "DB_ACTION::batchWrite"
  | .listTables .. => "DB_ACTION::listTables"
  | .createTable .. => "DB_ACTION::createTable"
  | .deleteTable .. => "DB_ACTION::deleteTable"

/-- Whether an error of the service is interpreted for the caller. Reads of many items and the
administration of tables let it through. -/
def interpretsErrors : Operation → Bool
  | .get .. => true
  | .create .. => true
  | .replace .. => true
  | .update .. => true
  | .delete .. => true
  | .batchWrite .. => true
  | _ => false

/-- The operation called by a name with arguments in order. Parameters may be left out at the end;
a number of arguments that no call has is an error, and so is an unknown name. -/
def ofCall (name : String) (args : List Value) : Except Fault Operation :=
  match name, args with
  | "get_item", [key] => .ok (.get key .null)
  | "get_item", [key, params] => .ok (.get key params)
  | "query", [params] => .ok (.query params)
  | "scan", [] => .ok (.scan .null)
  | "scan", [params] => .ok (.scan params)
  | "create_item", [item] => .ok (.create item .null .null)
  | "create_item", [item, id] => .ok (.create item id .null)
  | "create_item", [item, id, params] => .ok (.create item id params)
  | "replace_item", [key, item] => .ok (.replace key item .null)
  | "replace_item", [key, item, params] => .ok (.replace key item params)
  | "update_attributes", [key, attributes] => .ok (.update key attributes .null)
  | "update_attributes", [key, attributes, params] => .ok (.update key attributes params)
  | "delete_item", [key] => .ok (.delete key .null)
  | "delete_item", [key, params] => .ok (.delete key params)
  | "batch_write", [requests] => .ok (.batchWrite requests .null)
  | "batch_write", [requests, account] => .ok (.batchWrite requests account)
  | "list_tables", [] => .ok (.listTables .null)
  | "list_tables", [params] => .ok (.listTables params)
  | "create_table", [params] => .ok (.createTable params)
  | "delete_table", [] => .ok (.deleteTable .null)
  | "delete_table", [params] => .ok (.deleteTable params)
  | name, _ => .error (if names.contains name then .wrongType else .noMethod)
where
  names : List String :=
    ["get_item", "query", "scan", "create_item", "replace_item", "update_attributes",
     "delete_item", "batch_write", "list_tables", "create_table", "delete_table"]

end Operation

end ItemStore
