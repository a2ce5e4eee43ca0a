import MbmsMiddleware.Basic

/-! Parsed documents. Every attribute, text and child may be absent. -/

namespace MbmsMiddleware

inductive XmlElement where
  | mk (name : Str) (attributes : List (Str × Str)) (text : Option Str) (children : List XmlElement)

namespace XmlElement

def name : XmlElement → Str
  | mk n _ _ _ => n

def attributeValue (e : XmlElement) (key : Str) : Option Str :=
  match e with
  | mk _ attributes _ _ => attributes.lookup key

def getText : XmlElement → Option Str
  | mk _ _ text _ => text

/-- The children that a loop over `FirstChildElement` and `NextSiblingElement`
visits. -/
def childElements (e : XmlElement) (childName : Str) : List XmlElement :=
  match e with
  | mk _ _ _ children => children.filter (·.name = childName)

def firstChildElement (e : XmlElement) (childName : Str) : Option XmlElement :=
  (e.childElements childName).head?

end XmlElement

/-- A document by its top-level elements; none where the text does not parse. -/
abbrev XmlDocument := List XmlElement

def XmlDocument.firstChildElement (doc : XmlDocument) (childName : Str) : Option XmlElement :=
  doc.find? (·.name = childName)

namespace ServiceAnnouncementXmlElements

def bundleDescription : Str := "bundleDescription".toList
def nameElement : Str := "name".toList
def lang : Str := "lang".toList
def userServiceDescription : Str := "userServiceDescription".toList
def serviceId : Str := "serviceId".toList
def appService : Str := "r12:appService".toList
def deliveryMethod : Str := "deliveryMethod".toList
def sessionDescriptionUri : Str := "sessionDescriptionURI".toList
def basePattern : Str := "r12:basePattern".toList
def broadcastAppService : Str := "r12:broadcastAppService".toList
def unicastAppService : Str := "r12:unicastAppService".toList
def alternativeContent : Str := "r12:alternativeContent".toList
def identicalContent : Str := "r12:identicalContent".toList
def mimeType : Str := "mimeType".toList
def appServiceDescriptionUri : Str := "appServiceDescriptionURI".toList
def metadataEnvelope : Str := "metadataEnvelope".toList
def metadataUri : Str := "metadataURI".toList
def itemElement : Str := "item".toList
def version : Str := "version".toList
def validFrom : Str := "validFrom".toList
def validUntil : Str := "validUntil".toList

end ServiceAnnouncementXmlElements

end MbmsMiddleware
