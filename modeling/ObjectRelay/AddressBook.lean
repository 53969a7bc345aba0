import ObjectRelay.Address.Record
import ObjectRelay.Shuffle
import Std.Data.HashMap

namespace ObjectRelay

/-! The peers that a node knows of: those it learnt from others, under their
socket addresses, and those it was given to begin with. -/

structure AddressBook where
  bootstrap : List PeerRecord := []
  learnt : Std.HashMap SocketAddress PeerRecord := ∅

namespace PeerRecord

def seenAt (record : PeerRecord) : Int :=
  record.time.toInt64.toInt

def servesAny (record : PeerRecord) (streams : List UInt64) : Bool :=
  streams.contains record.stream.toUInt64

end PeerRecord

namespace AddressBook

def freshness : Int := 3 * 60 * 60

def clockSkew : Int := 10 * 60

def mostLearnt : Nat := 20000

def evictionBatch : Nat := mostLearnt / 100

/-- The oldest time is an integer.  From 1970 on it is the difference of the
words. -/
def isFresh (now : Int64) (record : PeerRecord) : Bool :=
  now.toInt - freshness ≤ record.seenAt

/-- The latest time is an integer too, and the sum of the words at every clock
up to ten minutes before the last. -/
def inRange (now : Int64) (record : PeerRecord) : Bool :=
  isFresh now record && record.seenAt ≤ now.toInt + clockSkew

/-- A bootstrap peer is given once for each endpoint. -/
def addBootstrap (book : AddressBook) (stream : UInt32)
    (peers : List SocketAddress) : AddressBook :=
  { book with
    bootstrap := peers.foldl
      (fun held peer =>
        let record := PeerRecord.ofSocket peer stream PeerRecord.relaysObjects 0
        if held.any (·.sameEndpoint record) then held else held ++ [record])
      book.bootstrap }

def cleanup (book : AddressBook) (now : Int64) : AddressBook :=
  { book with learnt := book.learnt.filter fun _ record => isFresh now record }

def evictOldest (book : AddressBook) (shuffle : Shuffle) : AddressBook :=
  let entries := shuffle.order book.learnt.toList
  let victims :=
    (entries.mergeSort fun left right => left.2.time ≤ right.2.time).take
    evictionBatch
  { book with
    learnt := victims.foldl (fun learnt victim => learnt.erase victim.1)
      book.learnt }

/-- Stale entries go first; only if there are none, a batch of the oldest
goes. -/
def makeRoom (book : AddressBook) (shuffle : Shuffle) (now : Int64) :
    AddressBook :=
  let cleaned := book.cleanup now
  if cleaned.learnt.size < book.learnt.size then cleaned
  else book.evictOldest shuffle

def insert (book : AddressBook) (record : PeerRecord) : AddressBook :=
  { book with learnt := book.learnt.insert record.socket record }

/-- Of two records of one endpoint the later one is kept. -/
def learn (shuffle : Shuffle) (now : Int64) (book : AddressBook)
    (record : PeerRecord) : AddressBook :=
  if inRange now record then
    match book.learnt[record.socket]? with
    | some held => if held.time < record.time then book.insert record else book
    | none =>
        if mostLearnt ≤ book.learnt.size
          then (book.makeRoom shuffle now).insert record
        else book.insert record
  else book

def offer (book : AddressBook) (shuffle : Shuffle) (now : Int64)
    (records : List PeerRecord) : AddressBook :=
  records.foldl (learn shuffle now) book

/-- Fresh records come first; bootstrap peers fill what is left of the limit. -/
def known (book : AddressBook) (shuffle : Shuffle) (now : Int64) (limit : Nat)
    (streams : List UInt64) : List PeerRecord :=
  let fresh := (shuffle.order (book.learnt.values.filter fun record =>
    record.servesAny streams && isFresh now record)).take limit
  let fallback := (shuffle.order (book.bootstrap.filter fun record =>
    record.servesAny streams && !fresh.any (·.sameEndpoint record))).take
      (limit - fresh.length)
  fresh ++ fallback

end AddressBook

end ObjectRelay
