/-!
# Errors

Every failure of this library by its cause, and the one wording of each.  The causes are grouped by
the work that fails: moving values into and out of documents, planning a query, setting up a model
or a store, running an operation in a state that does not allow it, and talking to a store.
-/

namespace DocMapping

/-! ## Values and documents -/

/-- Why a value has no document form, or a stored value no host form. -/
inductive ConversionFault where
  /-- A host value of another kind was given. -/
  | mismatch (kind found : String)
  | nullElement
  | storedNull
  | storedNullElement
  | notAnArray (found : String)
  | notAnOwnedEntity (target found : String)
  | notAnOwnedValue (found target : String)
  | notASubdocument (found : String)
  | notAnOwnedSubdocument (target found : String)
  /-- A stored value of a type that the kind cannot read. -/
  | unreadable (found kind : String)
  | notAMember (value enumeration : String)
  | notAMemberName (name enumeration : String)
  | fractional (number : String)
  | nanInteger
  | outsideRange (number lower upper : String)
  | lossyDouble (number : String)
  | nanDecimal
  | infiniteDecimal
  | outsideDecimal (number : String)
  | wideDecimal
  | preciseDecimal
  | noLocalTime (time : String)
  | subMillisecond
  | outsideDateTime (milliseconds : String)
  | subTick
  | notATimeOfDay (ticks : String)
  | notAList (found : String)
  /-- A text that is not the written form of the kind. -/
  | malformedText
deriving DecidableEq

def ConversionFault.message : ConversionFault → String
  | mismatch kind found => s!"expected a {kind} value but got {found}"
  | nullElement => "collection contains null but its elements are not nullable"
  | storedNull => "stored value is null but the property is not nullable"
  | storedNullElement => "stored collection contains null but its elements are not nullable"
  | notAnArray found => s!"expected an array but found {found}"
  | notAnOwnedEntity target found => s!"expected an owned '{target}' entity but got {found}"
  | notAnOwnedValue found target => s!"unexpected {found} for owned navigation to '{target}'"
  | notASubdocument found => s!"expected sub-documents but found {found}"
  | notAnOwnedSubdocument target found =>
    s!"expected an owned '{target}' sub-document but found {found}"
  | unreadable found kind => s!"cannot read stored {found} as {kind}"
  | notAMember value enumeration => s!"{value} is not a member of enum '{enumeration}'"
  | notAMemberName name enumeration => s!"'{name}' is not a member of enum '{enumeration}'"
  | fractional number => s!"{number} has a fractional part and truncation is not allowed"
  | nanInteger => "NaN is not an integer"
  | outsideRange number lower upper => s!"{number} is outside the range {lower}..={upper}"
  | lossyDouble number => s!"{number} cannot be stored as a double without losing precision"
  | nanDecimal => "NaN is not a decimal"
  | infiniteDecimal => "infinity is not a decimal"
  | outsideDecimal number => s!"{number} is outside the decimal range"
  | wideDecimal => "decimal128 value is outside the decimal range"
  | preciseDecimal =>
    "decimal128 value has more precision than a decimal and truncation is not allowed"
  | noLocalTime time => s!"{time} does not exist in the local time zone"
  | subMillisecond => "date-time has sub-millisecond precision and truncation is not allowed"
  | outsideDateTime milliseconds => s!"{milliseconds} ms is outside the date-time range"
  | subTick => "time has sub-tick precision and truncation is not allowed"
  | notATimeOfDay ticks => s!"{ticks} ticks is not a time of day"
  | notAList found => s!"expected a list of values but got {found}"
  | malformedText => "<parse error>"

/-! ## Queries -/

/-- Why no store can be asked for a query, or a server for a filter.  Expressions are held as
displayed. -/
inductive PlanningFault where
  | unmappedEntity (entity : String)
  | ownedSource (entity : String)
  | noSource (method : String)
  | notASource (expression : String)
  | thenByFirst (call : String)
  | skipAfterTake (call : String)
  | repeatedSkip (call : String)
  | repeatedTake (call : String)
  | repeatedSelect (call : String)
  | innerTerminal (call method : String)
  | notAQueryMethod (method call : String)
  | sortKey (expression : String)
  | notABooleanMember (expression : String)
  | unsupportedPredicate (expression : String)
  | twoMembers (expression : String)
  | noMember (expression : String)
  | entityComparison (expression : String)
  | unsupported (expression : String)
  | unsupportedMethod (name expression : String)
  | notAStringMember (expression : String)
  | notAListTest (expression : String)
  | unsupportedProjection (expression : String)
  | outOfScope (parameter : String)
  | memberOfValue (member target : String)
  | indexer (expression : String)
  | unmappedMember (member entity : String)
  | notAnOperand (expression whole : String)
  | notACount (call : String)
  | argumentList (call : String)
  | notALambda (expression call : String)
  | operatorAfter (operator previous : String)
  | notAStringOperand (operator field : String)
deriving DecidableEq

def PlanningFault.message : PlanningFault → String
  | unmappedEntity entity => s!"entity type '{entity}' is not mapped"
  | ownedSource entity => s!"owned entity type '{entity}' cannot be queried on its own"
  | noSource method => s!"call to '{method}' has no source"
  | notASource expression => s!"'{expression}' is not a queryable source"
  | thenByFirst call => s!"'{call}' must follow OrderBy or OrderByDescending"
  | skipAfterTake call => s!"'{call}': Skip after Take"
  | repeatedSkip call => s!"'{call}': repeated Skip with a parameter"
  | repeatedTake call => s!"'{call}': repeated Take with a parameter"
  | repeatedSelect call => s!"'{call}': Select over a projection"
  | innerTerminal call method => s!"'{call}': {method} must be the outermost operator"
  | notAQueryMethod method call => s!"method '{method}' cannot be applied to a query in '{call}'"
  | sortKey expression =>
    s!"ordering by '{expression}' is not supported; order by a mapped scalar member"
  | notABooleanMember expression =>
    s!"'{expression}' is not a boolean member and cannot be used as a predicate"
  | unsupportedPredicate expression => s!"predicate '{expression}' cannot be translated"
  | twoMembers expression =>
    s!"'{expression}' compares two members; only member-to-value comparisons are supported"
  | noMember expression => s!"'{expression}' does not reference a mapped member"
  | entityComparison expression =>
    s!"'{expression}' compares an entity; only scalar members and null checks are supported"
  | unsupported expression => s!"'{expression}' cannot be translated"
  | unsupportedMethod name expression => s!"method '{name}' in '{expression}' cannot be translated"
  | notAStringMember expression =>
    s!"'{expression}' requires a string member stored as text or a scalar collection"
  | notAListTest expression =>
    s!"'{expression}' must test a scalar member against a list of values"
  | unsupportedProjection expression =>
    s!"projection of '{expression}' cannot be translated; only mapped members and constants can be " ++
      "projected"
  | outOfScope parameter => s!"parameter '{parameter}' is not in scope"
  | memberOfValue member target => s!"member '{member}' of '{target}' cannot be translated"
  | indexer expression => s!"indexer '{expression}' cannot be translated"
  | unmappedMember member entity => s!"member '{member}' is not mapped on entity type '{entity}'"
  | notAnOperand expression whole =>
    s!"'{expression}' in '{whole}' is neither a constant nor a query parameter"
  | notACount call => s!"'{call}' needs a non-negative integer count"
  | argumentList call => s!"'{call}' has an unexpected argument list"
  | notALambda expression call => s!"'{expression}' in '{call}' is not a lambda"
  | operatorAfter operator previous => s!"{operator} after {previous} cannot be translated"
  | notAStringOperand operator field => s!"{operator} on '{field}' requires a string value"

/-! ## Setup -/

/-- What is contradictory or missing in a model, a store or their options. -/
inductive ConfigurationFault where
  | unknownEntity (entity : String)
  | noKey (entity : String)
  | repeatedEntity (entity : String)
  | selfContained (entity : String)
  | undeclaredKey (property entity : String)
  | nullableKey (property entity : String)
  | collectionKey (property entity : String)
  | unsupportedRepresentation (representation property kind entity : String)
  | generatedOutsideKey (property entity : String)
  | noGenerator (property kind entity : String)
  | undeclaredTarget (navigation entity target : String)
  | targetNotOwned (navigation entity target : String)
  | invalidElement (element entity : String)
  | repeatedElement (element entity : String)
  | noDiscriminator (entity collection : String)
  | sharedDiscriminator (value collection : String)
  | transactionsRequired
  | transactionsDisabled
deriving DecidableEq

def ConfigurationFault.message : ConfigurationFault → String
  | unknownEntity entity => s!"entity type '{entity}' is not part of the model"
  | noKey entity => s!"entity type '{entity}' has no key"
  | repeatedEntity entity => s!"entity type '{entity}' is declared more than once"
  | selfContained entity => s!"owned entity type '{entity}' contains itself"
  | undeclaredKey property entity => s!"key property '{property}' is not declared on '{entity}'"
  | nullableKey property entity => s!"key property '{property}' of '{entity}' cannot be nullable"
  | collectionKey property entity =>
    s!"key property '{property}' of '{entity}' cannot be a collection"
  | unsupportedRepresentation representation property kind entity =>
    s!"representation {representation} cannot encode property '{property}' of kind {kind} " ++
      s!"on '{entity}'"
  | generatedOutsideKey property entity =>
    s!"property '{property}' of '{entity}' is generated on add but only key properties support " ++
      "value generation"
  | noGenerator property kind entity =>
    s!"no value generator is available for key property '{property}' of kind {kind} on '{entity}'"
  | undeclaredTarget navigation entity target =>
    s!"navigation '{navigation}' of '{entity}' targets undeclared type '{target}'"
  | targetNotOwned navigation entity target =>
    s!"navigation '{navigation}' of '{entity}' targets '{target}', which is not an owned entity type"
  | invalidElement element entity =>
    s!"element name '{element}' on '{entity}' is not a valid document field name"
  | repeatedElement element entity =>
    s!"element name '{element}' is used more than once in documents of '{entity}'"
  | noDiscriminator entity collection =>
    s!"entity type '{entity}' shares collection '{collection}' but has no discriminator"
  | sharedDiscriminator value collection =>
    s!"discriminator value '{value}' is used by more than one type in collection '{collection}'"
  | transactionsRequired =>
    "transactions are required but the transport does not support them; " ++
      "set transaction_behavior to when_supported or never to save without one"
  | transactionsDisabled => "this in-memory store was built without transaction support"

/-! ## Operations -/

/-- Why an operation cannot run on the values or in the state it was given. -/
inductive OperationFault where
  | missingParameter (name : String)
  | notACountParameter (name found : String)
  | noRecordMember (member : String)
  | nullTarget (target expression : String)
  | memberOfScalar (member found : String)
  | notAnIndex (expression : String)
  | indexOutOfRange (index expression : String)
  | notEvaluable (expression : String)
  | notABoolean (expression : String)
  | notBooleans (expression : String)
  | overflow (expression : String)
  | incompatible (expression : String)
  | notNumeric (expression left right : String)
  | notText (found : String)
  | countTooLarge (count : String)
  | disposed
  | unmappedProjection (member : String)
  | missingKey (entity property : String)
  | ordinalKey (property entity : String)
  | ordinalTooLarge (ordinal property : String)
  | ownedEntry (entity : String)
  | alreadySaved (state : String)
  | foreignTransaction
deriving DecidableEq

def OperationFault.message : OperationFault → String
  | missingParameter name => s!"no value was supplied for query parameter '{name}'"
  | notACountParameter name found =>
    s!"query parameter '{name}' must be a non-negative integer count, got {found}"
  | noRecordMember member => s!"record has no member '{member}'"
  | nullTarget target expression => s!"'{target}' is null while evaluating '{expression}'"
  | memberOfScalar member found => s!"cannot read member '{member}' of a {found} value"
  | notAnIndex expression => s!"'{expression}' needs a non-negative integer index"
  | indexOutOfRange index expression => s!"index {index} is out of range in '{expression}'"
  | notEvaluable expression => s!"'{expression}' cannot be evaluated on the client"
  | notABoolean expression => s!"'{expression}' is not a boolean"
  | notBooleans expression => s!"'{expression}' combines non-boolean operands"
  | overflow expression => s!"arithmetic overflow evaluating '{expression}'"
  | incompatible expression => s!"'{expression}' mixes incompatible operands"
  | notNumeric expression left right =>
    s!"'{expression}' applies arithmetic to {left} and {right}"
  | notText found => s!"a {found} value cannot be concatenated"
  | countTooLarge count => s!"count {count} does not fit the result type"
  | disposed => "the query results have been disposed"
  | unmappedProjection member => s!"projection member '{member}' is not mapped"
  | missingKey entity property =>
    s!"entity '{entity}' was added without a value for key property '{property}' and no value " ++
      "generator is configured"
  | ordinalKey property entity =>
    s!"ordinal key property '{property}' of '{entity}' is assigned through its owner"
  | ordinalTooLarge ordinal property =>
    s!"ordinal {ordinal} does not fit key property '{property}'"
  | ownedEntry entity => s!"owned entity type '{entity}' can only be saved through its owner"
  | alreadySaved state => s!"unit of work is {state} and cannot be saved again"
  | foreignTransaction => "the transaction was not started by this store"

/-! ## Stores -/

/-- What a store reports; `reported` is the text of a store of its own. -/
inductive TransportFault where
  | reported (text : String)
  | immutableIdentifier
  | blockedPath (path element found : String)
  | writeConflict (collection : String)
deriving DecidableEq

def TransportFault.message : TransportFault → String
  | reported text => text
  | immutableIdentifier =>
    "performing an update on the path '_id' would modify the immutable field '_id'"
  | blockedPath path element found =>
    s!"cannot create field '{path}' in element " ++ "\x7b" ++ s!"{element}: {found}" ++ "\x7d"
  | writeConflict collection =>
    s!"write conflict: collection '{collection}' changed after the transaction read it"

/-- How many results an operator met that expects one. -/
inductive CardinalityFault where
  | noElements
  | moreThanOneElement
deriving DecidableEq

def CardinalityFault.message : CardinalityFault → String
  | noElements => "Sequence contains no elements"
  | moreThanOneElement => "Sequence contains more than one element"

/-! ## All errors -/

/-- A failure of this library. -/
inductive StoreError where
  | planning (fault : PlanningFault)
  | missingElement (entity element : String)
  | conversion (property : String) (fault : ConversionFault)
  | configuration (fault : ConfigurationFault)
  | concurrencyConflict (collection key : String)
  | duplicateKey (key collection : String)
  | cardinality (fault : CardinalityFault)
  | operation (fault : OperationFault)
  /-- A text of options that cannot be read. -/
  | serialization
  | transport (fault : TransportFault)
  | cancelled
deriving DecidableEq

namespace StoreError

def message : StoreError → String
  | planning fault => s!"Translation not supported: {fault.message}"
  | missingElement entity element =>
    s!"Document for entity '{entity}' is missing required element '{element}'"
  | conversion property fault => s!"Cannot convert value of property '{property}': {fault.message}"
  | configuration fault => s!"Configuration error: {fault.message}"
  | concurrencyConflict collection key =>
    s!"Concurrency conflict in collection {collection}: no document matched key {key}"
  | duplicateKey key collection => s!"Document {key} already exists in collection {collection}"
  | cardinality fault => fault.message
  | operation fault => s!"Invalid operation: {fault.message}"
  | serialization => "Serialization error: the text is not a valid set of options"
  | transport fault => s!"Transport error: {fault.message}"
  | cancelled => "Operation cancelled"

/-- The name of the group of an error. -/
def kind : StoreError → String
  | planning _ => "TranslationNotSupported"
  | missingElement _ _ => "MissingElement"
  | conversion _ _ => "Conversion"
  | configuration _ => "Configuration"
  | concurrencyConflict _ _ => "ConcurrencyConflict"
  | duplicateKey _ _ => "DuplicateKey"
  | cardinality _ => "Cardinality"
  | operation _ => "InvalidOperation"
  | serialization => "Serialization"
  | transport _ => "Transport"
  | cancelled => "Cancelled"

/-- Another writer changed or removed the document that a command expected. -/
def isConcurrencyConflict : StoreError → Bool
  | concurrencyConflict _ _ => true
  | _ => false

/-- The store failed; the only failures that are worth another try. -/
def isTransport : StoreError → Bool
  | transport _ => true
  | _ => false

end StoreError

/-- The outcome of an operation that may fail. -/
abbrev Outcome (α : Type) := Except StoreError α

/-- The result of a step of planning, which fails only where no store can be asked. -/
abbrev Planned (α : Type) := Except PlanningFault α

def Planned.toOutcome {α : Type} (result : Planned α) : Outcome α :=
  result.mapError .planning

end DocMapping
