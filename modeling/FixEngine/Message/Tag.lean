/-!
# Tag numbers

Every field of a message carries a tag number.  These are the tags that the
session layer and the wire format name; all others are known to a dictionary
only by their number.
-/

namespace FixEngine

/-- The number that names a field. -/
abbrev Tag := UInt32

namespace Tag

/-- Average price of the fills so far. -/
def avgPx : Tag := 6

/-- First number asked for again. -/
def beginSeqNo : Tag := 7

/-- Protocol version; the first field of every message. -/
def beginString : Tag := 8

/-- Number of bytes between this field and the checksum. -/
def bodyLength : Tag := 9

/-- Checksum; the last field of every message. -/
def checkSum : Tag := 10

/-- Order number given by the client. -/
def clOrdId : Tag := 11

/-- Quantity filled so far. -/
def cumQty : Tag := 14

/-- Last number asked for again. -/
def endSeqNo : Tag := 16

def execId : Tag := 17

def msgSeqNum : Tag := 34

def msgType : Tag := 35

/-- Number that a sequence reset moves on to. -/
def newSeqNo : Tag := 36

/-- Order number given by the broker. -/
def orderId : Tag := 37

def orderQty : Tag := 38

def ordStatus : Tag := 39

def ordType : Tag := 40

/-- Marks a message that may have been sent before under the same number. -/
def possDupFlag : Tag := 43

def price : Tag := 44

/-- Sequence number of the message referred to. -/
def refSeqNum : Tag := 45

/-- Company that sends. -/
def senderCompId : Tag := 49

/-- Desk or trader that sends. -/
def senderSubId : Tag := 50

def sendingTime : Tag := 52

/-- Buy or sell. -/
def side : Tag := 54

/-- Ticker symbol. -/
def symbol : Tag := 55

/-- Company that receives. -/
def targetCompId : Tag := 56

/-- Desk or trader that receives. -/
def targetSubId : Tag := 57

def text : Tag := 58

/-- Time of the business event. -/
def transactTime : Tag := 60

def signature : Tag := 89

def secureDataLen : Tag := 90

def secureData : Tag := 91

def signatureLength : Tag := 93

/-- Marks a message that may have been sent before under another number. -/
def possResend : Tag := 97

def encryptMethod : Tag := 98

/-- Seconds between heartbeats. -/
def heartBtInt : Tag := 108

/-- Text that a heartbeat returns. -/
def testReqId : Tag := 112

/-- Company on whose behalf the message is sent. -/
def onBehalfOfCompId : Tag := 115

/-- Desk on whose behalf the message is sent. -/
def onBehalfOfSubId : Tag := 116

/-- Time of the first sending of a repeated message. -/
def origSendingTime : Tag := 122

/-- Tells a gap fill from a reset. -/
def gapFillFlag : Tag := 123

/-- Company that the message is finally for. -/
def deliverToCompId : Tag := 128

/-- Desk that the message is finally for. -/
def deliverToSubId : Tag := 129

/-- Asks for both sequences to begin anew. -/
def resetSeqNumFlag : Tag := 141

/-- Place of the sender. -/
def senderLocationId : Tag := 142

/-- Place of the receiver. -/
def targetLocationId : Tag := 143

/-- Place on whose behalf the message is sent. -/
def onBehalfOfLocationId : Tag := 144

/-- Place that the message is finally for. -/
def deliverToLocationId : Tag := 145

def noRelatedSym : Tag := 146

def execType : Tag := 150

/-- Quantity still open. -/
def leavesQty : Tag := 151

def xmlDataLen : Tag := 212

def xmlData : Tag := 213

def messageEncoding : Tag := 347

/-- Last number that the sender has processed. -/
def lastMsgSeqNumProcessed : Tag := 369

/-- Tag referred to by a reject. -/
def refTagId : Tag := 371

def refMsgType : Tag := 372

/-- Reason of a session reject. -/
def sessionRejectReason : Tag := 373

/-- Business identifier of the rejected message. -/
def businessRejectRefId : Tag := 379

/-- Reason of a business reject. -/
def businessRejectReason : Tag := 380

def noMsgTypes : Tag := 384

def msgDirection : Tag := 385

def noPartyIds : Tag := 453

def partyId : Tag := 448

def partyIdSource : Tag := 447

def partyRole : Tag := 452

def username : Tag := 553

def password : Tag := 554

def noMdEntries : Tag := 268

def noAllocs : Tag := 78

/-- Version of the application messages. -/
def applVerId : Tag := 1128

/-- Version of the application messages of a session. -/
def defaultApplVerId : Tag := 1137

/-- The tags above with their names. -/
def named : List (String × Tag) :=
  [ ("AVG_PX", avgPx), ("BEGIN_SEQ_NO", beginSeqNo), ("BEGIN_STRING", beginString),
    ("BODY_LENGTH", bodyLength), ("CHECK_SUM", checkSum), ("CL_ORD_ID", clOrdId),
    ("CUM_QTY", cumQty), ("END_SEQ_NO", endSeqNo), ("EXEC_ID", execId), ("MSG_SEQ_NUM", msgSeqNum),
    ("MSG_TYPE", msgType), ("NEW_SEQ_NO", newSeqNo), ("ORDER_ID", orderId),
    ("ORDER_QTY", orderQty), ("ORD_STATUS", ordStatus), ("ORD_TYPE", ordType),
    ("POSS_DUP_FLAG", possDupFlag), ("PRICE", price), ("REF_SEQ_NUM", refSeqNum),
    ("SENDER_COMP_ID", senderCompId), ("SENDER_SUB_ID", senderSubId),
    ("SENDING_TIME", sendingTime), ("SIDE", side), ("SYMBOL", symbol),
    ("TARGET_COMP_ID", targetCompId), ("TARGET_SUB_ID", targetSubId), ("TEXT", text),
    ("TRANSACT_TIME", transactTime), ("SIGNATURE", signature), ("SECURE_DATA_LEN", secureDataLen),
    ("SECURE_DATA", secureData), ("SIGNATURE_LENGTH", signatureLength),
    ("POSS_RESEND", possResend), ("ENCRYPT_METHOD", encryptMethod), ("HEART_BT_INT", heartBtInt),
    ("TEST_REQ_ID", testReqId), ("ON_BEHALF_OF_COMP_ID", onBehalfOfCompId),
    ("ON_BEHALF_OF_SUB_ID", onBehalfOfSubId), ("ORIG_SENDING_TIME", origSendingTime),
    ("GAP_FILL_FLAG", gapFillFlag), ("DELIVER_TO_COMP_ID", deliverToCompId),
    ("DELIVER_TO_SUB_ID", deliverToSubId), ("RESET_SEQ_NUM_FLAG", resetSeqNumFlag),
    ("SENDER_LOCATION_ID", senderLocationId), ("TARGET_LOCATION_ID", targetLocationId),
    ("ON_BEHALF_OF_LOCATION_ID", onBehalfOfLocationId),
    ("DELIVER_TO_LOCATION_ID", deliverToLocationId), ("NO_RELATED_SYM", noRelatedSym),
    ("EXEC_TYPE", execType), ("LEAVES_QTY", leavesQty), ("XML_DATA_LEN", xmlDataLen),
    ("XML_DATA", xmlData), ("MESSAGE_ENCODING", messageEncoding),
    ("LAST_MSG_SEQ_NUM_PROCESSED", lastMsgSeqNumProcessed), ("REF_TAG_ID", refTagId),
    ("REF_MSG_TYPE", refMsgType), ("SESSION_REJECT_REASON", sessionRejectReason),
    ("BUSINESS_REJECT_REF_ID", businessRejectRefId),
    ("BUSINESS_REJECT_REASON", businessRejectReason), ("NO_MSG_TYPES", noMsgTypes),
    ("MSG_DIRECTION", msgDirection), ("NO_PARTY_IDS", noPartyIds), ("PARTY_ID", partyId),
    ("PARTY_ID_SOURCE", partyIdSource), ("PARTY_ROLE", partyRole), ("USERNAME", username),
    ("PASSWORD", password), ("NO_MD_ENTRIES", noMdEntries), ("NO_ALLOCS", noAllocs),
    ("APPL_VER_ID", applVerId), ("DEFAULT_APPL_VER_ID", defaultApplVerId) ]

end Tag

end FixEngine
