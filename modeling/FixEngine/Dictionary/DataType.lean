import FixEngine.Text.Casing

/-!
# Data types of fields

The types that a dictionary gives to tags.  They fall into those whose values
are integers, those whose values are decimals, and the rest.
-/

namespace FixEngine

inductive DataType where
  | int
  | length
  | seqNum
  | numInGroup
  | tagNum
  | dayOfMonth
  | float
  | qty
  | price
  | priceOffset
  | amt
  | percentage
  | char
  | boolean
  | string
  | multipleValueString
  | currency
  | exchange
  | country
  | monthYear
  | utcTimestamp
  | utcTimeOnly
  | utcDateOnly
  | localMktDate
  | data
  deriving DecidableEq, Repr

namespace DataType

def isInteger : DataType → Bool
  | int | length | seqNum | numInGroup | tagNum | dayOfMonth => true
  | _ => false

def isDecimal : DataType → Bool
  | float | qty | price | priceOffset | amt | percentage => true
  | _ => false

def isNumeric (t : DataType) : Bool := t.isInteger || t.isDecimal

def isTemporal : DataType → Bool
  | utcTimestamp | utcTimeOnly | utcDateOnly => true
  | _ => false

def all : List DataType :=
  [int, length, seqNum, numInGroup, tagNum, dayOfMonth, float, qty, price, priceOffset, amt,
    percentage, char, boolean, string, multipleValueString, currency, exchange, country,
    monthYear, utcTimestamp, utcTimeOnly, utcDateOnly, localMktDate, data]

def name : DataType → String
  | int => "Int"
  | length => "Length"
  | seqNum => "SeqNum"
  | numInGroup => "NumInGroup"
  | tagNum => "TagNum"
  | dayOfMonth => "DayOfMonth"
  | float => "Float"
  | qty => "Qty"
  | price => "Price"
  | priceOffset => "PriceOffset"
  | amt => "Amt"
  | percentage => "Percentage"
  | char => "Char"
  | boolean => "Boolean"
  | string => "String"
  | multipleValueString => "MultipleValueString"
  | currency => "Currency"
  | exchange => "Exchange"
  | country => "Country"
  | monthYear => "MonthYear"
  | utcTimestamp => "UtcTimestamp"
  | utcTimeOnly => "UtcTimeOnly"
  | utcDateOnly => "UtcDateOnly"
  | localMktDate => "LocalMktDate"
  | data => "Data"

def ofName? (text : String) : Option DataType :=
  all.find? (·.name = text)

/-- The type that a specification calls by a word, in upper or lower case.
Words that name no type stand for text. -/
def ofWord (word : String) : DataType :=
  match Casing.upper word with
  | "INT" => int
  | "LENGTH" => length
  | "SEQNUM" => seqNum
  | "NUMINGROUP" => numInGroup
  | "TAGNUM" => tagNum
  | "DAYOFMONTH" => dayOfMonth
  | "FLOAT" => float
  | "QTY" | "QUANTITY" => qty
  | "PRICE" => price
  | "PRICEOFFSET" => priceOffset
  | "AMT" | "AMOUNT" => amt
  | "PERCENTAGE" => percentage
  | "CHAR" => char
  | "BOOLEAN" => boolean
  | "MULTIPLEVALUESTRING" | "MULTIPLESTRINGVALUE" | "MULTIPLECHARVALUE" => multipleValueString
  | "CURRENCY" => currency
  | "EXCHANGE" => exchange
  | "COUNTRY" => country
  | "MONTHYEAR" => monthYear
  | "UTCTIMESTAMP" => utcTimestamp
  | "UTCTIMEONLY" => utcTimeOnly
  | "UTCDATEONLY" | "UTCDATE" => utcDateOnly
  | "LOCALMKTDATE" => localMktDate
  | "DATA" => data
  | _ => string

/-- The type of a tag in the specification. -/
def ofTag (tag : UInt32) : DataType :=
  match tag with
  | 7 | 16 | 34 | 36 | 45 | 369 | 789 => seqNum
  | 9 | 90 | 93 | 95 | 212 | 354 | 356 => length
  | 73 | 78 | 136 | 146 | 199 | 232 | 268 | 382 | 384 | 453 | 454 | 539 | 555 | 802 => numInGroup
  | 371 => tagNum
  | 205 => dayOfMonth
  | 98 | 102 | 103 | 108 | 290 | 346 | 373 | 380 | 452 | 803 | 1130 => int
  | 14 | 32 | 38 | 53 | 80 | 110 | 111 | 151 | 271 => qty
  | 6 | 31 | 44 | 99 | 132 | 133 | 270 => price
  | 211 => priceOffset
  | 118 | 119 | 381 => amt
  | 194 => float
  | 12 | 153 => percentage
  | 4 | 20 | 21 | 39 | 40 | 54 | 59 | 150 | 269 | 279 | 385 | 447 | 661 => char
  | 43 | 97 | 121 | 123 | 141 | 325 | 464 => boolean
  | 18 => multipleValueString
  | 15 | 120 => currency
  | 30 | 100 | 207 => exchange
  | 421 => country
  | 200 => monthYear
  | 52 | 60 | 122 | 126 => utcTimestamp
  | 273 => utcTimeOnly
  | 272 => utcDateOnly
  | 64 | 75 | 432 => localMktDate
  | 89 | 91 | 96 | 213 => data
  | _ => string

end DataType

end FixEngine
