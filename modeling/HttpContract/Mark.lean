import HttpContract.Text.LetterCase
import HttpContract.Value.Basic

/-!
# Marks

What a contract's author attaches to a class, a method, a parameter or a return: the service, the
verb and path, and the role a value plays in the request or the response.
-/

namespace HttpContract

/-- The one part of the exchange that a parameter stands for. -/
inductive Role
  | pathVariable
  | queryParameter
  | requestHeader
  | contentHeader
  | responseHeader
  | body
deriving DecidableEq, Repr, Inhabited

namespace Role

/-- The name of the role in outputs. -/
def name : Role → String
  | pathVariable => "path-variable"
  | queryParameter => "query-parameter"
  | requestHeader => "request-header"
  | contentHeader => "content-header"
  | responseHeader => "response-header"
  | body => "body"

/-- The name of the mark that gives the role. -/
def markName : Role → String
  | pathVariable => "PathValue"
  | queryParameter => "Query"
  | requestHeader => "RequestHeader"
  | contentHeader => "ContentHeader"
  | responseHeader => "ResponseHeader"
  | body => "Body"

end Role

/-- How a body is put on the wire; `auto` leaves it to the type. -/
inductive BodyEncoding
  | auto
  | json
  | raw
deriving DecidableEq, Repr, Inhabited

namespace BodyEncoding

/-- The name of the encoding in outputs. -/
def name : BodyEncoding → String
  | auto => "auto"
  | json => "json"
  | raw => "raw"

end BodyEncoding

/-- The marks that carry a key; `bare` is the kind without a role. -/
inductive KeyedMark
  | path
  | query
  | requestHeader
  | contentHeader
  | responseHeader
  | bare
deriving DecidableEq, Repr, Inhabited

namespace KeyedMark

/-- The role that a mark of this kind gives; the common base of the marks gives none. -/
def role? : KeyedMark → Option Role
  | path => some .pathVariable
  | query => some .queryParameter
  | requestHeader => some .requestHeader
  | contentHeader => some .contentHeader
  | responseHeader => some .responseHeader
  | bare => none

/-- The name of the class of the mark. -/
def name (k : KeyedMark) : String := (k.role?.map Role.markName).getD "ParameterMark"

end KeyedMark

/-- An item of the metadata of an annotation. -/
inductive Mark
  | keyed (kind : KeyedMark) (key : Option String)
  | body (format : BodyEncoding) (contentType : Option String)
  /-- Metadata that means nothing here. -/
  | other (metadata : Value)
deriving Inhabited, Repr, BEq

/-- A mark that gives a role. -/
inductive RoleMark
  | keyed (role : Role) (key : Option String)
  | body (format : BodyEncoding) (contentType : Option String)
deriving Inhabited, Repr, DecidableEq

namespace RoleMark

/-- The role that the mark gives. -/
def role : RoleMark → Role
  | keyed r _ => r
  | body .. => .body

end RoleMark

namespace Mark

/-- What an item of metadata says about the role of its parameter, if anything. -/
def roleMark? : Mark → Option RoleMark
  | keyed kind key => kind.role?.map (.keyed · key)
  | body format contentType => some (.body format contentType)
  | other _ => none

end Mark

/-- The verb and the path template of a method. -/
structure Endpoint where
  verb : String
  path : String
deriving DecidableEq, Repr, Inhabited

namespace Endpoint

/-- Verbs are kept in upper case. -/
def of (verb path : String) : Endpoint := ⟨Text.upper verb, path⟩

end Endpoint

/-- The logical service of a contract and the route all its paths start with. -/
structure ServiceMark where
  name : String
  route : String
deriving DecidableEq, Repr, Inhabited

end HttpContract
