import LearnAsio.Http.Message

namespace LearnAsio
namespace Http

/-!
# Responses and the request handler

A response is a status, a header map and a content.  `to_buffers` stamps the
date and the content length into the map and returns buffer descriptors for the
status line, the header lines in the iteration order of the map, an empty line
and the content.

Two things are left open because the source leaves them open.  The map is a
`std::unordered_map`, so its iteration order is any permutation of its entries;
and the date text comes from the clock.  The request handler is virtual, hence
a parameter, with the handler of this repository as one value of it.
-/

/-- `response::status_code`.  The last constructor is a value outside the
enumerators, for which the switches have their default branch. -/
inductive StatusCode where
  | ok | created | accepted | noContent
  | multipleChoices | movedPermanently | movedTemporarily | notModified
  | badRequest | unauthorized | forbidden | notFound
  | internalServerError | notImplemented | badGateway | serviceUnavailable
  | other (value : Int)
  deriving DecidableEq, Repr

/-- `status_strings::to_buffer`. -/
def statusLine : StatusCode → Bytes
  | .ok => bytes "HTTP/1.0 200 OK\r\n"
  | .created => bytes "HTTP/1.0 201 Created\r\n"
  | .accepted => bytes "HTTP/1.0 202 Accepted\r\n"
  | .noContent => bytes "HTTP/1.0 204 No Content\r\n"
  | .multipleChoices => bytes "HTTP/1.0 300 Multiple Choices\r\n"
  | .movedPermanently => bytes "HTTP/1.0 301 Moved Permanently\r\n"
  | .movedTemporarily => bytes "HTTP/1.0 302 Moved Temporarily\r\n"
  | .notModified => bytes "HTTP/1.0 304 Not Modified\r\n"
  | .badRequest => bytes "HTTP/1.0 400 Bad Request\r\n"
  | .unauthorized => bytes "HTTP/1.0 401 Unauthorized\r\n"
  | .forbidden => bytes "HTTP/1.0 403 Forbidden\r\n"
  | .notFound => bytes "HTTP/1.0 404 Not Found\r\n"
  | .internalServerError => bytes "HTTP/1.0 500 Internal Server Error\r\n"
  | .notImplemented => bytes "HTTP/1.0 501 Not Implemented\r\n"
  | .badGateway => bytes "HTTP/1.0 502 Bad Gateway\r\n"
  | .serviceUnavailable => bytes "HTTP/1.0 503 Service Unavailable\r\n"
  | .other _ => bytes "HTTP/1.0 500 Internal Server Error\r\n"

/-- The common shape of the stock pages: a title and a heading. -/
def stockPage (title heading : String) : Bytes :=
  bytes "<html>" ++ bytes "<head><title>" ++ bytes title ++ bytes "</title></head>" ++
    bytes "<body><h1>" ++ bytes heading ++ bytes "</h1></body>" ++ bytes "</html>"

/-- `stock_replies::to_string`. -/
def stockReply : StatusCode → Bytes
  | .ok => []
  | .created => stockPage "Created" "201 Created"
  | .accepted => stockPage "Accepted" "202 Accepted"
  | .noContent => stockPage "No Content" "204 Content"
  | .multipleChoices => stockPage "Multiple Choices" "300 Multiple Choices"
  | .movedPermanently => stockPage "Moved Permanently" "301 Moved Permanently"
  | .movedTemporarily => stockPage "Moved Temporarily" "302 Moved Temporarily"
  | .notModified => stockPage "Not Modified" "304 Not Modified"
  | .badRequest => stockPage "Bad Request" "400 Bad Request"
  | .unauthorized => stockPage "Unauthorized" "401 Unauthorized"
  | .forbidden => stockPage "Forbidden" "403 Forbidden"
  | .notFound => stockPage "Not Found" "404 Not Found"
  | .internalServerError => stockPage "Internal Server Error" "500 Internal Server Error"
  | .notImplemented => stockPage "Not Implemented" "501 Not Implemented"
  | .badGateway => stockPage "Bad Gateway" "502 Bad Gateway"
  | .serviceUnavailable => stockPage "Service Unavailable" "503 Service Unavailable"
  | .other _ => stockPage "Internal Server Error" "500 Internal Server Error"

/-! ### Field names and separators -/

def kConnection : Bytes := bytes "Connection"
def kDate : Bytes := bytes "Date"
def kServer : Bytes := bytes "Server"
def kContentLength : Bytes := bytes "Content-Length"
def kContentType : Bytes := bytes "Content-Type"

def nameValueSeparator : Bytes := bytes ": "
def crlf : Bytes := bytes "\r\n"

/-- `std::to_string` of a size. -/
def decimal (size : Nat) : Bytes :=
  (Nat.toDigits 10 size).map fun digit => digit.toNat.toUInt8

/-- `struct response`. -/
structure Response where
  status : StatusCode := .notImplemented
  headers : HeaderMap := ∅
  content : Bytes := []
  deriving DecidableEq

/-- An iteration order of the unordered map. -/
structure Iteration where
  order : HeaderMap → List (Bytes × Bytes)
  perm : ∀ map, (order map).Perm (map.entries.map fun entry => (entry.1, entry.2))

/-- Iteration in the order in which the entries are held here. -/
def Iteration.entries : Iteration where
  order := fun map => map.entries.map fun entry => (entry.1, entry.2)
  perm := fun _ => List.Perm.refl _

namespace Response

/-- `response::response(status_code)`. -/
def ofStatus (code : StatusCode) : Response :=
  { status := code
    content := stockReply code
    headers := (∅ : HeaderMap).insert kContentLength (decimal (stockReply code).length) }

/-- `response::response()`. -/
def initial : Response :=
  { status := .ok
    headers := (((∅ : HeaderMap).insert kContentType (bytes "text/json")).insert
      kServer (bytes "tonghao&asio")).insert kConnection (bytes "close") }

/-- The assignments to the header map in `to_buffers`. -/
def stamp (response : Response) (date : Bytes) : Response :=
  { response with
    headers := (response.headers.insert kDate date).insert
      kContentLength (decimal response.content.length) }

/-- The four buffers of one header line. -/
def headerBuffers (header : Bytes × Bytes) : List Bytes :=
  [header.1, nameValueSeparator, header.2, crlf]

/-- `response::to_buffers`: the stamped response and the contents of the
returned buffers. -/
def toBuffers (iteration : Iteration) (response : Response) (date : Bytes) :
    Response × List Bytes :=
  let response := response.stamp date
  (response,
    statusLine response.status ::
      ((iteration.order response.headers).flatMap headerBuffers ++ [crlf, response.content]))

end Response

/-! ## The request handler -/

/-- The member functions that a connection can dispatch to. -/
inductive HandlerMethod where
  | onGet | onPost | onPut | onDelete
  deriving DecidableEq, Repr

/-- A `request_handler`: each member reads the request and writes the response. -/
structure RequestHandler where
  invoke : HandlerMethod → PublicFields → Response → Response

namespace RequestHandler

/-- The body that all four members of this repository share. -/
def completeMe (_request : PublicFields) (response : Response) : Response :=
  { response with content := bytes "complete me", status := .ok }

def onGet : PublicFields → Response → Response := completeMe
def onPost : PublicFields → Response → Response := completeMe
def onPut : PublicFields → Response → Response := completeMe
def onDelete : PublicFields → Response → Response := completeMe

/-- The handler of this repository. -/
def repository : RequestHandler where
  invoke
    | .onGet => onGet
    | .onPost => onPost
    | .onPut => onPut
    | .onDelete => onDelete

end RequestHandler
end Http
end LearnAsio
