/-
Operations on documents and indices: each is one request to the path made of
its names, and an answer that is read.
-/
import ClusterOutput.Answer.Acknowledgement
import ClusterOutput.Answer.Search
import ClusterOutput.Client.Dispatch
import ClusterOutput.Url.DocumentPath

namespace ClusterOutput

/-- Reads an answer to an operation on a document or an index. -/
def Acknowledgement.read (body : Bytes) : Except RequestError Acknowledgement :=
  (Acknowledgement.decode body).mapError (.decode "QueryResult")

/-- Reads an answer to a search. -/
def SearchAnswer.read (body : Bytes) : Except RequestError SearchAnswer :=
  (SearchAnswer.decode body).mapError (.decode "SearchResults")

namespace Client

/-- Reads the answer to a request. An answer that cannot be read is one more error to count. -/
def reading {α : Type} (c : Client) (world : World) (op : Operation) (method : String)
    (read : Bytes → Except RequestError α) :
    Except RequestError Bytes × Session → Except RequestError α × Session
  | (.error e, s) => (.error e, s)
  | (.ok bytes, s) =>
    match read bytes with
    | .ok a => (.ok a, s)
    | .error e => (.error e, c.noteError world op method e s)

/-- Stores a document: under an id, or under one that the cluster chooses where the id is
empty. -/
def index (c : Client) (world : World) (index docType id : String) (params : Option Url.Params)
    (body : Body) (s : Session) : Except RequestError Acknowledgement × Session :=
  let method := if id = "" then "POST" else "PUT"
  let path := Url.documentPath index docType id
  c.reading world .index method Acknowledgement.read <|
    c.requestAs world .index method path params (some body) (s.log (.indexing method path))

/-- Deletes a document. That there is none is an answer like any other. -/
def delete (c : Client) (world : World) (index docType id : String) (params : Option Url.Params)
    (s : Session) : Except RequestError Acknowledgement × Session :=
  let path := Url.documentPath index docType id
  c.reading world .delete "DELETE" Acknowledgement.read <|
    c.requestAs world .delete "DELETE" path params none (s.log (.deleting path))

/-- Creates an index. -/
def createIndex (c : Client) (world : World) (index : String) (s : Session) :
    Except RequestError Acknowledgement × Session :=
  let path := Url.documentPath index "" ""
  c.reading world .createIndex "PUT" Acknowledgement.read <|
    c.requestAs world .createIndex "PUT" path none none (s.log (.creatingIndex path))

/-- Makes what was written to an index visible to searches. -/
def refresh (c : Client) (world : World) (index : String) (s : Session) :
    Except RequestError Acknowledgement × Session :=
  c.reading world .refresh "POST" Acknowledgement.read <|
    c.requestAs world .refresh "POST" (Url.documentPath index "" "_refresh") none none s

/-- Searches an index; the parameters say for what. -/
def search (c : Client) (world : World) (index docType : String) (params : Option Url.Params)
    (s : Session) : Except RequestError SearchAnswer × Session :=
  let path := Url.documentPath index docType "_search"
  c.reading world .search "GET" SearchAnswer.read <|
    c.requestAs world .search "GET" path params none (s.log (.searching path))

end Client

end ClusterOutput
