/-! Why a query text is refused. Each cause belongs to one clause, and its wording
is fixed here. -/
namespace RecordQuery

/-- The clauses of a query, and the text as a whole. -/
inductive Clause where
  | query | select | filter | group | having | order | limit | offset
  deriving DecidableEq, Repr

def Clause.name : Clause → String
  | query => "QUERY"
  | select => "SELECT"
  | filter => "WHERE"
  | group => "GROUP BY"
  | having => "HAVING"
  | order => "ORDER BY"
  | limit => "LIMIT"
  | offset => "OFFSET"

inductive ReadError where
  | emptyQuery
  | tooLong (length limit : Nat)
  | notSelect
  | emptySelectList
  | labelledWildcard
  | unsupportedSelectItem (text : String)
  | missingCondition (clause : Clause)
  | unsupportedGroupItem (text : String)
  | emptyOrderItem
  | unsupportedOrderItem (text : String)
  | invalidCount (clause : Clause) (token : String)
  deriving DecidableEq, Repr

namespace ReadError

def clause : ReadError → Clause
  | emptyQuery | tooLong _ _ | notSelect => .query
  | emptySelectList | labelledWildcard | unsupportedSelectItem _ => .select
  | missingCondition clause | invalidCount clause _ => clause
  | unsupportedGroupItem _ => .group
  | emptyOrderItem | unsupportedOrderItem _ => .order

def reason : ReadError → String
  | emptyQuery => "query is empty"
  | tooLong length limit =>
    "query is " ++ toString length ++ " characters long, the limit is " ++ toString limit
  | notSelect => "only SELECT statements are supported"
  | emptySelectList => "select list is empty"
  | labelledWildcard => "`*` cannot take an alias"
  | unsupportedSelectItem text => "unsupported select item `" ++ text ++ "`"
  | missingCondition clause => clause.name ++ " needs a condition"
  | unsupportedGroupItem text => "unsupported GROUP BY item `" ++ text ++ "`"
  | emptyOrderItem => "empty ORDER BY item"
  | unsupportedOrderItem text => "unsupported ORDER BY item `" ++ text ++ "`"
  | invalidCount clause token => "invalid " ++ clause.name ++ " value '" ++ token ++ "'"

def message (error : ReadError) : String :=
  "SQL parse error [" ++ error.clause.name ++ "]: " ++ error.reason

end ReadError
end RecordQuery
